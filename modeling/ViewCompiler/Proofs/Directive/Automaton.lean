import ViewCompiler.Proofs.Directive.Rows

/-!
# An automaton that reads a document once

The characters of a document are read from left to right, each of them once. Between two of
them the automaton is outside, on the line of a directive, or inside a block, whose braces it
counts and whose open literal it knows. It looks ahead no further than to the end of the line:
for a directive where a line begins, and for an opener behind an `@`.

On one line, the automaton goes through the modes that the searches and runs through blocks
hand on: a search for an opener stays outside up to the `@`, a run stays inside up to the
closing brace, and a literal is passed one character after the other.
-/

namespace ViewCompiler

open Text

/-- The place so many characters further on the line. -/
def Location.along (location : Location) (count : Nat) : Location :=
  { location with absolute := location.absolute + count, character := location.character + count }

/-- No character further is the same place. -/
theorem Location.along_zero (location : Location) : location.along 0 = location := rfl

/-- Going along a line twice is going along it for the sum. -/
theorem Location.along_along (location : Location) (one other : Nat) :
    (location.along one).along other = location.along (one + other) := by
  simp [Location.along, Nat.add_assoc]

/-- The place behind a line feed. -/
def Location.nextLine (location : Location) : Location :=
  { location with absolute := location.absolute + 1, line := location.line + 1, character := 0 }

/-- What is left of the line that the text begins on, without the line's end. -/
def Text.restOfLine (text : Text) : Text := chopReturn (text.takeWhile (· != '\n'))

namespace Automaton

/-- A literal that is not yet closed. -/
structure Literal where
  quote : Char
  /-- Whether a backslash passes over the next character. -/
  escaped : Bool := false
deriving DecidableEq, Repr

/-- Where the automaton is between two characters. -/
inductive Mode
  | outside
  /-- On a line that was read as a directive. -/
  | directive
  | inside (block : OpenBlock) (literal : Option Literal)
deriving DecidableEq, Repr

namespace Mode

/-- The mode on the next line: a literal ends with its line, as a directive does. -/
def atLineEnd : Mode → Mode
  | .outside | .directive => .outside
  | .inside block _ => .inside block none

/-- The mode behind a character at a place of a line, of which `rest` is left behind it. The flag
says whether a letter or digit stands before the character. -/
def next (place : Location) (joined : Bool) (rest : Text) (char : Char) : Mode → Mode
  | .outside =>
    if char = '@' ∧ joined = false ∧ Block.opens rest then .inside { location := place } none
    else .outside
  | .directive => .directive
  | .inside block none =>
    if char = '"' ∨ char = '\'' then .inside block (some { quote := char })
    else if char = '{' then .inside { block with depth := block.depth + 1, entered := true } none
    else if char = '}' then
      if block.entered ∧ block.depth - 1 = 0 then .outside
      else .inside { block with depth := block.depth - 1 } none
    else .inside block none
  | .inside block (some literal) =>
    if literal.escaped then .inside block (some { literal with escaped := false })
    else if char = '\\' then .inside block (some { literal with escaped := true })
    else if char = literal.quote then .inside block none
    else .inside block (some literal)

end Mode

end Automaton

/-- An automaton that reads a document. -/
structure Automaton where
  mode : Automaton.Mode := .outside
  /-- Where the next character stands. -/
  place : Location
  /-- Whether a letter or digit stands before the next character on its line. -/
  joined : Bool := false
  /-- What was found up to here. -/
  found : Scanned := {}
deriving DecidableEq, Repr

namespace Automaton

/-- At the beginning of a line, outside, a directive is accepted or refused. Every other line is
markup. -/
def beginLine (source : Scanned.Source) (ahead : Text) (automaton : Automaton) : Automaton :=
  let found := automaton.found
  let line := automaton.place.line
  let text := restOfLine ahead
  match automaton.mode, Directive.read? text with
  | .outside, some written =>
    let value := trim written.rest
    let endColumn := (trimEnd text).length
    match Directive.fault? (found.directives.map (·.kind)) source.inImport written.kind value with
    | some fault =>
      let error := ⟨fault.message, automaton.place.along written.column, endColumn - written.column⟩
      { automaton with
        mode := .directive, found := { found with errors := found.errors ++ [error] } }
    | none =>
      let directive := ⟨written.kind, unquote value, line, written.column, endColumn⟩
      { automaton with
        mode := .directive, found := { found with directives := found.directives ++ [directive] } }
  | _, _ => { automaton with found := { found with markup := found.markup ++ [(line, text)] } }

/-- Reads one character, before the text `ahead`. -/
def step (source : Scanned.Source) (ahead : Text) (automaton : Automaton) (char : Char) :
    Automaton :=
  if char = '\n' then
    beginLine source ahead { automaton with
      mode := automaton.mode.atLineEnd, place := automaton.place.nextLine, joined := false }
  else
    { automaton with
      mode := automaton.mode.next automaton.place automaton.joined (restOfLine ahead) char
      place := automaton.place.along 1
      joined := isAlphanumeric char }

/-- Reads a text. -/
def run (source : Scanned.Source) (automaton : Automaton) : Text → Automaton
  | [] => automaton
  | char :: ahead => run source (step source ahead automaton char) ahead

/-- Reads a whole document. -/
def read (source : Scanned.Source) (content : Text) : Automaton :=
  run source (beginLine source content { place := ⟨source.file, 0, 0, 0⟩ }) content

/-- The error of a block that the automaton is inside of, at the block's opener. -/
def unclosed (automaton : Automaton) : List TemplateError :=
  match automaton.mode with
  | .inside block _ => [⟨DirectiveFault.openBlock.message, block.location, 1⟩]
  | _ => []

namespace Mode

variable (place : (left : Nat) → Location)

/-- The mode behind a line that is read to its end. A place on the line is told by how much of
the line is left from there on. -/
def across : (joined : Bool) → Mode → Text → Mode
  | _, mode, [] => mode.atLineEnd
  | joined, mode, char :: rest =>
    across (isAlphanumeric char) (mode.next (place (rest.length + 1)) joined rest char) rest

/-- The mode between two lines. -/
def between : Option OpenBlock → Mode
  | none => .outside
  | some block => .inside block none

/-- The line of a directive is passed. -/
theorem across_directive (joined : Bool) (text : Text) :
    across place joined .directive text = .outside := by
  induction text generalizing joined with
  | nil => rfl
  | cons char text inductionHypothesis => exact inductionHypothesis (isAlphanumeric char)

/-- A backslash is told from other characters, whether it ends its line or not. -/
theorem ne_backslash {char : Char} {rest : Text} (alone : char = '\\' → rest = [] → False)
    (paired : ∀ passed more, char = '\\' → rest = passed :: more → False) : char ≠ '\\' := by
  intro backslash
  cases rest with
  | nil => exact alone backslash rfl
  | cons passed more => exact paired passed more backslash rfl

/-- A literal is passed up to its closing quote, or else to the end of the line. -/
theorem across_literal (block : OpenBlock) (quote : Char) (joined : Bool) (text : Text) :
    ∃ joined', across place joined (.inside block (some { quote })) text =
      across place joined' (.inside block none) (Block.afterLiteral quote text) := by
  fun_induction Block.afterLiteral quote text generalizing joined with
  | case1 => exact ⟨joined, rfl⟩
  | case2 => exact ⟨joined, rfl⟩
  | case3 passed rest inductionHypothesis => exact inductionHypothesis (isAlphanumeric passed)
  | case4 rest alone paired =>
    have plain : quote ≠ '\\' := ne_backslash alone paired
    refine ⟨isAlphanumeric quote, ?_⟩
    simp [across, next, plain]
  | case5 char rest alone paired other inductionHypothesis =>
    have plain : char ≠ '\\' := ne_backslash alone paired
    obtain ⟨joined', passed⟩ := inductionHypothesis (isAlphanumeric char)
    refine ⟨joined', ?_⟩
    simpa [across, next, plain, other] using passed

/-- A run goes through the modes inside the block until the line or the block ends. -/
theorem across_run (block : OpenBlock) (joined : Bool) (text : Text) :
    across place joined (.inside block none) text =
      match Block.run block text with
      | .inl after => .inside after none
      | .inr rest => across place false .outside rest := by
  fun_induction Block.run block text generalizing joined with
  | case1 block => rfl
  | case2 block char text quoted _ inductionHypothesis =>
    obtain ⟨joined', passed⟩ := across_literal place block char (isAlphanumeric char) text
    rw [across, next, if_pos quoted, passed]
    exact inductionHypothesis joined'
  | case3 block text quoted inductionHypothesis =>
    rw [across, next, if_neg quoted, if_pos rfl]
    exact inductionHypothesis _
  | case4 block text closing quoted opening =>
    rw [across, next, if_neg quoted, if_neg opening, if_pos rfl, if_pos closing]
    rfl
  | case5 block text going quoted opening inductionHypothesis =>
    rw [across, next, if_neg quoted, if_neg opening, if_pos rfl, if_neg going]
    exact inductionHypothesis _
  | case6 block char text quoted opening closing inductionHypothesis =>
    rw [across, next, if_neg quoted, if_neg opening, if_neg closing]
    exact inductionHypothesis _

/-- A search goes on outside up to the first opener, and behind its `@` inside. -/
theorem across_opener (joined : Bool) (text : Text) :
    across place joined .outside text =
      match Block.opener? joined text with
      | none => .outside
      | some behind =>
        across place false (.inside { location := place (behind.length + 1) } none) behind := by
  induction text generalizing joined with
  | nil => rfl
  | cons char text inductionHypothesis =>
    rw [across, next, Block.opener?]
    split
    · rename_i opening
      rw [opening.1]
      rfl
    · exact inductionHypothesis _

/-- Outside, a line leads to the block that is open behind its blocks. -/
theorem across_outside (text : Text) :
    across place false .outside text = between (Block.afterOutside place text) := by
  fun_induction Block.afterOutside place text with
  | case1 text absent =>
    rw [across_opener, absent]
    rfl
  | case2 text behind found block closed =>
    rw [across_opener, found]
    simp only [across_run, closed]
    rfl
  | case3 text behind found rest closed _ _ inductionHypothesis =>
    rw [across_opener, found]
    simp only [across_run, closed]
    exact inductionHypothesis

/-- A line leads from the block that is open before it to the block that is open behind it. -/
theorem across_line (block : Option OpenBlock) (text : Text) :
    across place false (between block) text = between (Block.afterLine place block text) := by
  cases block with
  | none => exact across_outside place text
  | some block =>
    rw [between, across_run, Block.afterLine]
    cases Block.run block text with
    | inl after => rfl
    | inr rest => exact across_outside place rest

end Mode

end Automaton

end ViewCompiler

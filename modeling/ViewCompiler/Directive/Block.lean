import ViewCompiler.Directive

/-!
# Code blocks

Outside a block, an `@` opens one if a brace or a keyword of a statement follows it and
no letter or digit stands before it. Inside a block, braces count, and quotes start a
literal that ends at the same quote or with the line; a backslash passes over the
character after it. The block ends at the brace that brings the count back to zero,
and what follows that brace is outside again.

A line is looked at as a whole: the search for an opener, the run to the closing brace
and the passing of a literal each hand on the rest of the line.
-/

namespace ViewCompiler

open Text

/-- A code block that was opened and not yet closed. -/
structure OpenBlock where
  depth : Nat := 0
  /-- Whether the block's own brace was met. -/
  entered : Bool := false
  /-- The `@` that opened it. -/
  location : Location
deriving DecidableEq, Repr

namespace Block

/-- The statements that open a block. -/
def statements : List Text := ["functions", "if", "for", "foreach", "while", "switch"]

/-- Whether what follows an `@` opens a block: a brace, a statement keyword, or the
statement that disposes of what stands in its parentheses. -/
def opens (rest : Text) : Bool :=
  beginsWith ['{'] rest ||
    statements.any (fun statement =>
      match afterLead? statement rest with
      | some after => !continuesWord after
      | none => false) ||
    match afterLead? "using" rest with
    | some after => beginsWith ['('] (trimStart after)
    | none => false

/-- What follows the `@` of the first opener. The flag says whether a letter or digit
stands before the text. -/
def opener? : (joined : Bool) → Text → Option Text
  | _, [] => none
  | joined, char :: rest =>
    if char = '@' ∧ joined = false ∧ opens rest then some rest
    else opener? (isAlphanumeric char) rest

/-- What follows a literal's closing quote on its line. -/
def afterLiteral (quote : Char) : Text → Text
  | [] => []
  | ['\\'] => []
  | '\\' :: _ :: rest => afterLiteral quote rest
  | char :: rest => if char = quote then rest else afterLiteral quote rest

/-- What follows a literal is no longer than what its quote stands before. -/
theorem afterLiteral_length (quote : Char) (text : Text) :
    (afterLiteral quote text).length ≤ text.length := by
  fun_induction afterLiteral quote text with
  | case1 => simp
  | case2 => simp
  | case3 _ rest inductionHypothesis =>
    simp only [List.length_cons]
    omega
  | case4 char rest => simp
  | case5 char rest _ _ inductionHypothesis =>
    simp only [List.length_cons]
    omega

/-- Runs through a block until the line or the block ends; in the second case the rest
of the line is left. -/
def run (block : OpenBlock) (text : Text) : OpenBlock ⊕ Text :=
  match text with
  | [] => .inl block
  | char :: rest =>
    if char = '"' ∨ char = '\'' then
      have := afterLiteral_length char rest
      run block (afterLiteral char rest)
    else if char = '{' then run { block with depth := block.depth + 1, entered := true } rest
    else if char = '}' then
      if block.entered ∧ block.depth - 1 = 0 then .inr rest
      else run { block with depth := block.depth - 1 } rest
    else run block rest
termination_by text.length

/-- What follows an opener is shorter than the text that it is found in. -/
theorem opener?_length {joined : Bool} {text rest : Text} (found : opener? joined text = some rest) :
    rest.length < text.length := by
  induction text generalizing joined with
  | nil => simp [opener?] at found
  | cons char text inductionHypothesis =>
    simp only [opener?] at found
    split at found
    · simp only [Option.some.injEq] at found
      simp [found]
    · exact Nat.lt_succ_of_lt (inductionHypothesis found)

/-- What is left of a line behind the end of a block is shorter than the line. -/
theorem run_length {block : OpenBlock} {text rest : Text} (closed : run block text = .inr rest) :
    rest.length < text.length := by
  fun_induction run block text with
  | case1 => simp at closed
  | case2 block char text _ bound inductionHypothesis =>
    have := inductionHypothesis closed
    simp only [List.length_cons]
    omega
  | case3 block text _ inductionHypothesis => exact Nat.lt_succ_of_lt (inductionHypothesis closed)
  | case4 block text =>
    simp only [Sum.inr.injEq] at closed
    simp [closed]
  | case5 block text _ _ _ inductionHypothesis => exact Nat.lt_succ_of_lt (inductionHypothesis closed)
  | case6 block char text _ _ _ inductionHypothesis => exact Nat.lt_succ_of_lt (inductionHypothesis closed)

/-- The block that is open after the rest of a line, none being open before it. A place
on the line is told by how much of the line is left from there on. -/
def afterOutside (place : (left : Nat) → Location) (text : Text) : Option OpenBlock :=
  match found : opener? false text with
  | none => none
  | some inside =>
    match closed : run { location := place (inside.length + 1) } inside with
    | .inl block => some block
    | .inr rest =>
      have := opener?_length found
      have := run_length closed
      afterOutside place rest
termination_by text.length

/-- The block that is open after a whole line. -/
def afterLine (place : (left : Nat) → Location) : Option OpenBlock → Text → Option OpenBlock
  | none, line => afterOutside place line
  | some block, line =>
    match run block line with
    | .inl block => some block
    | .inr rest => afterOutside place rest

end Block

end ViewCompiler

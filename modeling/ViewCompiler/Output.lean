import ViewCompiler.Text

/-!
# What a run writes

A run of the program writes results on one stream and complaints on another, and ends
with a code: zero if all went well.
-/

namespace ViewCompiler

/-- A piece of what a program writes, and on which stream. -/
inductive Output
  | out (text : Text)
  | err (text : Text)
deriving DecidableEq, Repr

namespace Output

/-- The end of a run that cannot go on. The cause of the fault, if there is one to tell,
stands in a paragraph of its own. -/
def complaint (message : Text) (cause : Option Text) : Output :=
  .err ("Error: " ++ message ++ (match cause with
    | some cause => "\n\nCaused by:\n    " ++ cause
    | none => []) ++ "\n")

end Output

/-- What a run of the program comes to. -/
structure RunResult where
  output : List Output := []
  code : Nat := 0
deriving DecidableEq, Repr

namespace RunResult

/-- What is written on the stream of results. -/
def out (result : RunResult) : Text :=
  result.output.flatMap fun
    | .out text => text
    | .err _ => []

/-- What is written on the stream of complaints. -/
def err (result : RunResult) : Text :=
  result.output.flatMap fun
    | .out _ => []
    | .err text => text

end RunResult

end ViewCompiler

import ViewCompiler.Report
import ViewCompiler.Screen

/-!
# Reports as text

A failing template is shown file by file, and each fault with the line it is on and
carets under the characters it is about, as far as the line is known. Columns are taken
to count from one, and what lies outside the line is moved to its end.
-/

namespace ViewCompiler

open Text

namespace Snippet

/-- Which characters of a line of this width the carets stand under: from the first
number up to the second, which is greater. -/
def extent (width : Nat) (message : Message) : Nat × Nat :=
  let start := min (message.startColumn - 1) width
  let last := max width (start + 1)
  if message.endLine = message.startLine then (start, min (max (message.endColumn - 1) (start + 1)) last)
  else (start, last)

/-- The line of a fault, if there is one with its number. -/
def line? (lines : List Text) (message : Message) : Option Text :=
  if message.startLine = 0 then none else lines[message.startLine - 1]?

/-- The line of a fault and the carets under it. -/
def render (lines : List Text) (message : Message) : Option Text :=
  (line? lines message).map fun line =>
    let number := decimal message.startLine
    let (start, stop) := extent line.length message
    let bar := Screen.dimmed ['|']
    "  " ++ Screen.dimmed number ++ " " ++ bar ++ " " ++ line ++ "\n" ++
      "  " ++ List.replicate number.length ' ' ++ " " ++ bar ++ " " ++ List.replicate start ' ' ++
      Screen.red (List.replicate (stop - start) '^') ++ "\n"

end Snippet

/-- A path between brackets, as the reports on a file begin. -/
def fileHeading (path : Text) : Text :=
  Screen.dimmed ['['] ++ Screen.cyan path ++ Screen.dimmed [']'] ++ "\n"

/-- The arrow that faults begin with. -/
def arrow : Text := Screen.red "→" ++ " "

namespace Message

/-- A fault with its place, and its line if that is known. -/
def render (lines : List Text) (message : Message) : Text :=
  arrow ++ Screen.dimmed (decimal message.startLine ++ ":" ++ decimal message.startColumn) ++ " " ++
    message.message ++ "\n" ++ (Snippet.render lines message).getD []

end Message

namespace Failure

/-- The faults of a file. -/
def render (failure : Failure) : Text :=
  let lines := match failure.content with
    | some content => lines content
    | none => []
  fileHeading failure.file ++ failure.messages.flatMap (Message.render lines)

end Failure

namespace TemplateReport

/-- A report. -/
def render (report : TemplateReport) : Text :=
  match report.status with
  | .compiled typeName _ =>
    Screen.green "✓" ++ " " ++ report.path ++ " " ++ Screen.dimmed typeName ++ "\n"
  | .notFound => fileHeading report.path ++ arrow ++ "not found\n"
  | .failed failures => failures.flatMap Failure.render

/-- How many faults reports tell. -/
def totalErrors (reports : List TemplateReport) : Nat :=
  reports.foldr (fun report count => report.errorCount + count) 0

/-- What reports come to, in one line. -/
def summary (reports : List TemplateReport) : Text :=
  let checked := "checked " ++ counted reports.length "template"
  match failing reports with
  | [] => checked ++ ", " ++ Screen.green "all compiled"
  | failed =>
    let errors := totalErrors reports
    checked ++ ", found " ++ Screen.bold (Screen.red (decimal errors)) ++ " error" ++ plural errors ++ " in " ++
      counted failed.length "template"

end TemplateReport

end ViewCompiler

import ViewCompiler.Text.Blank

/-!
# What a terminal is sent

Everything the program shows is text with control sequences: colours, and moves of the
cursor that let later output take the place of earlier output. A log line clears the
line it is printed on. A status block is printed over the block before it, whose height
it has to know. A progress line is redrawn in place and stays below the log until it is
finished or dropped.
-/

namespace ViewCompiler

open Text

namespace Screen

/-- The escape character. -/
def escape : Char := '\x1b'

/-- A control sequence. -/
def control (body : Text) : Text := escape :: '[' :: body

/-- A text between two control sequences that set and reset a property of characters. -/
def styled (set reset : Text) (text : Text) : Text := control set ++ text ++ control reset

def bold (text : Text) : Text := styled "1m" "0m" text
def dimmed (text : Text) : Text := styled "2m" "0m" text
def red (text : Text) : Text := styled "31m" "39m" text
def green (text : Text) : Text := styled "32m" "39m" text
def cyan (text : Text) : Text := styled "36m" "39m" text

/-- Back to the first column, and the line cleared. -/
def clearLine : Text := control "1G" ++ control "2K"

/-- Up by so many lines, and everything from there on cleared. -/
def clearUp (lines : Nat) : Text := control (decimal lines ++ "A") ++ control "J"

/-- The bright colour of a part of the program. -/
def colour (topic : Text) : Text :=
  if topic = ("cache" : Text) then "94m"
  else if topic = ("watch" : Text) then "92m"
  else if topic = ("error" : Text) then "91m"
  else "93m"

/-- The name of a part of the program, as lines begin with it. -/
def tag (topic : Text) : Text := bold (styled (colour topic) "39m" ('[' :: topic ++ [']']))

/-- A number in at least two digits. -/
def twoDigits (number : Nat) : Text := if number < 10 then '0' :: decimal number else decimal number

/-- The time of the day, in universal time, so many seconds after midnight of some day. -/
def clock (seconds : Nat) : Text :=
  twoDigits (seconds / 3600 % 24) ++ ":" ++ twoDigits (seconds / 60 % 60) ++ ":" ++ twoDigits (seconds % 60)

/-- A log line by itself. -/
def logLine (topic message : Text) : Text := clearLine ++ tag topic ++ " " ++ message ++ "\n"

end Screen

/-- How many lines the status block on the screen has, none if there is no block. -/
structure StatusBlock where
  height : Nat := 0
deriving DecidableEq, Repr

namespace StatusBlock

/-- How many lines a text takes; an empty one takes one. -/
def lineCount (text : Text) : Nat := max 1 (lines text).length

/-- What clears a block away: nothing if there is none, or if it is higher than the
cursor can be told to move. -/
def clearing (block : StatusBlock) : Text :=
  if 0 < block.height ∧ block.height < 0x10000 then Screen.clearUp block.height else []

/-- Shows a text with the time and possibly a symbol in front, in the place of the block
before it. -/
def show_ (block : StatusBlock) (clock : Text) (symbol : Option Text) (body : Text) : Text × StatusBlock :=
  let stamp := Screen.dimmed ('[' :: clock ++ [']'])
  let lead := match symbol with
    | some symbol => stamp ++ " " ++ symbol
    | none => stamp
  (block.clearing ++ lead ++ " " ++ body ++ "\n", ⟨lineCount body⟩)

/-- All is well. -/
def success (block : StatusBlock) (clock message : Text) : Text × StatusBlock :=
  block.show_ clock (some (Screen.green "✓")) message

/-- There was nothing to do. -/
def unchanged (block : StatusBlock) (clock message : Text) : Text × StatusBlock :=
  block.show_ clock none (Screen.dimmed message)

/-- Something is wrong; the details follow on lines of their own. -/
def error (block : StatusBlock) (clock summary detail : Text) : Text × StatusBlock :=
  block.show_ clock (some (Screen.red "✗"))
    (if detail = [] then summary else summary ++ "\n" ++ detail)

end StatusBlock

/-- Counters of work done out of totals. -/
structure ProgressLine where
  counters : List (Text × Nat × Nat)
deriving DecidableEq, Repr

namespace ProgressLine

/-- Counters at zero; those without work are left out. -/
def ofTotals (totals : List (Text × Nat)) : ProgressLine :=
  ⟨(totals.filter fun (_, total) => 0 < total).map fun (name, total) => (name, 0, total)⟩

/-- The counters on one line. -/
def render (progress : ProgressLine) : Text :=
  Screen.tag "check" ++ " " ++
    joined " " (progress.counters.map fun (name, done, total) =>
      name ++ "(" ++ decimal done ++ "/" ++ decimal total ++ ")")

/-- The first counter of a name one further. -/
def count (name : Text) : List (Text × Nat × Nat) → List (Text × Nat × Nat)
  | [] => []
  | (other, done, total) :: rest =>
    if other = name then (other, done + 1, total) :: rest else (other, done, total) :: count name rest

/-- Whether there is a counter of a name. -/
def has (progress : ProgressLine) (name : Text) : Bool := progress.counters.any fun counter => counter.1 == name

end ProgressLine

/-- What is on the screen below the log: the status block, and the progress line. -/
structure Terminal where
  status : StatusBlock := {}
  progress : Option ProgressLine := none
  /-- Whether the progress line stands on the screen. -/
  drawn : Bool := false
deriving Repr

namespace Terminal

/-- Prints a log line above the progress line. -/
def log (terminal : Terminal) (topic message : Text) : Text :=
  Screen.logLine topic message ++
    match terminal.progress with
    | some progress => if terminal.drawn then progress.render else []
    | none => []

/-- Draws a progress line. -/
def draw (terminal : Terminal) (progress : ProgressLine) : Text × Terminal :=
  (Screen.clearLine ++ progress.render, { terminal with progress := some progress, drawn := true })

/-- Begins a new progress line. If there is one already, taking that away clears the new
one too, until it is drawn again. -/
def begin_ (terminal : Terminal) (totals : List (Text × Nat)) : Text × Terminal :=
  let (text, begun) := terminal.draw (ProgressLine.ofTotals totals)
  match terminal.progress with
  | none => (text, begun)
  | some _ => (text ++ Screen.clearLine, { begun with drawn := false })

/-- Counts one more piece of work; a name without counter changes nothing. -/
def advance (terminal : Terminal) (name : Text) : Text × Terminal :=
  match terminal.progress with
  | none => ([], terminal)
  | some progress =>
    if progress.has name then terminal.draw ⟨ProgressLine.count name progress.counters⟩
    else ([], terminal)

/-- Leaves the final counts on the screen. -/
def finish (terminal : Terminal) : Text × Terminal :=
  match terminal.progress with
  | none => ([], terminal)
  | some progress =>
    (Screen.clearLine ++ progress.render ++ "\n", { terminal with progress := none, drawn := false })

/-- Takes the progress line away. -/
def drop (terminal : Terminal) : Text × Terminal :=
  match terminal.progress with
  | none => ([], terminal)
  | some _ =>
    (if terminal.drawn then Screen.clearLine else [], { terminal with progress := none, drawn := false })

end Terminal

end ViewCompiler

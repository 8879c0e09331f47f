import ViewCompiler.Event
import ViewCompiler.Screen

/-!
# The log

What the program tells in lines of its own. Events are details, shown only to who asked
for them; everything else is always shown.
-/

namespace ViewCompiler

open Text

/-- A line of the log. -/
inductive Notice
  | detail (event : Event)
  /-- A configuration file has fields that nothing reads. -/
  | unknownFields (file : Text) (fields : List Text)
  /-- There is nothing to check. -/
  | noTemplates (root : Text)
  /-- What a check came to, in one line. -/
  | summary (text : Text)
  /-- The program watches a directory until it is stopped. -/
  | watching (root : Text)
  /-- A changed configuration is in force. -/
  | reloaded
deriving DecidableEq, Repr

namespace Notice

/-- The part of the program that a line is printed under. -/
def topic : Notice → Text
  | .detail event => event.topic
  | .unknownFields .. => "warning"
  | .noTemplates _ | .summary _ => "check"
  | .watching _ | .reloaded => "watch"

/-- The wording of a line. -/
def message : Notice → Text
  | .detail event => event.message
  | .unknownFields file fields => "unknown fields in " ++ file ++ ", ignoring: " ++ joined ", " fields
  | .noTemplates root => "no templates found under " ++ root
  | .summary text => text
  | .watching root => "watching " ++ root ++ " (ctrl+c to stop)"
  | .reloaded => "config reloaded"

/-- Whether a line is shown. -/
def isShown (verbose : Bool) : Notice → Bool
  | .detail _ => verbose
  | _ => true

/-- The lines that are shown, as printed. -/
def printed (verbose : Bool) (notices : List Notice) : Text :=
  (notices.filter (isShown verbose)).flatMap fun notice => Screen.logLine notice.topic notice.message

end Notice

end ViewCompiler

import ViewCompiler.Text

/-!
# Physical paths

Paths of a file system with `/` between names. A path is kept as it was spelled; what
it means component by component is a view of the spelling, in which repeated and
trailing slashes and inner `.` count for nothing. Two spellings with the same
components are the same path, and paths are ordered by their components.
-/

namespace ViewCompiler.Physical

open Text

/-- One step of a path. -/
inductive Component
  /-- The root of the file system. -/
  | root
  /-- The starting directory, only as the first step of a relative path. -/
  | here
  /-- The parent directory. -/
  | up
  /-- A named entry. -/
  | name (text : Text)
deriving DecidableEq, Repr

/-- The texts between slashes. -/
def rawPieces (path : Text) : List Text := pieces (· == '/') path

/-- Whether a path starts at the root of the file system. -/
def isAbsolute (path : Text) : Bool := beginsWith ['/'] path

/-- The step that a text between slashes stands for, unless it counts for nothing. -/
def step? (piece : Text) : Option Component :=
  if piece = [] ∨ piece = ['.'] then none
  else if piece = ['.', '.'] then some .up
  else some (.name piece)

/-- The steps of a path. -/
def components (path : Text) : List Component :=
  match rawPieces path with
  | [] => []
  | first :: rest =>
    let start :=
      if first = [] then (if isAbsolute path then [.root] else [])
      else if first = ['.'] then [.here]
      else (step? first).toList
    start ++ rest.filterMap step?

/-- Where a step stands in the order of paths. -/
def Component.rank : Component → Nat
  | .root => 0
  | .here => 1
  | .up => 2
  | .name _ => 3

/-- Whether the first list of steps comes before the second or equals it. -/
def stepsAtMost : List Component → List Component → Bool
  | [], _ => true
  | _ :: _, [] => false
  | left :: lefts, right :: rights =>
    if left = right then stepsAtMost lefts rights
    else match left, right with
      | .name one, .name other => atMost one other
      | _, _ => left.rank ≤ right.rank

/-- A path seen from a directory: an absolute path stands for itself. -/
def join (base path : Text) : Text :=
  if isAbsolute path then path
  else if base = [] ∨ endsWith ['/'] base then base ++ path
  else base ++ '/' :: path

/-- The steps of a path below a directory, if it lies there. -/
def below? : (directory path : List Component) → Option (List Component)
  | [], path => some path
  | _ :: _, [] => none
  | expected :: directory, actual :: path =>
    if expected = actual then below? directory path else none

/-- Whether a path lies in a directory or is that directory. -/
def liesIn (directory path : Text) : Bool :=
  (below? (components directory) (components path)).isSome

/-- The names of steps that only go down. -/
def namesOf : List Component → Option (List Text)
  | [] => some []
  | .name text :: rest => (namesOf rest).map (text :: ·)
  | .here :: rest => namesOf rest
  | _ :: _ => none

/-- The logical path of a physical path, if it goes straight down from the root of
the project. -/
def toLogical (root physical : Text) : Option Text := do
  let names ← namesOf (← below? (components root) (components physical))
  return if names.isEmpty then ['/'] else names.flatMap ('/' :: ·)

/-- The last name of a path. -/
def fileName? (path : Text) : Option Text :=
  match (components path).getLast? with
  | some (.name text) => some text
  | _ => none

/-- What follows the last dot of the last name, unless that dot begins the name. -/
def extension? (path : Text) : Option Text := do
  match cutLast? (· == '.') (← fileName? path) with
  | none | some ([], _) => none
  | some (_, after) => some after

/-- Whether a text between slashes counts for nothing. -/
def isIdle (piece : Text) : Bool := piece == [] || piece == ['.']

/-- The path without its last step, as it was spelled. -/
def parent? (path : Text) : Option Text :=
  let outer (reversed : List Text) : Option (List Text) :=
    match reversed.dropWhile isIdle with
    | [] => none
    | _ :: before => some (before.dropWhile isIdle).reverse
  match rawPieces path with
  | [] => none
  | first :: rest =>
    if isAbsolute path then
      (outer rest.reverse).map fun names => '/' :: joined ['/'] names
    else if first = ['.'] then
      match outer rest.reverse with
      | none => some []
      | some names => some (joined ['/'] (first :: names))
    else (outer (first :: rest).reverse).map (joined ['/'])

/-- A path with a leading `~` exchanged for the home directory, if the `~` stands
alone or before a slash. -/
def expandHome (home : Text) : Text → Text
  | ['~'] => home
  | '~' :: '/' :: rest => home ++ '/' :: rest
  | path => path

/-- A path as a directory's settings mean it: from the home directory if it begins
with `~`, from that directory if it is relative. -/
def resolveAgainst (home path base : Text) : Text := join base (expandHome home path)

end ViewCompiler.Physical

import ViewCompiler.Table
import ViewCompiler.Text

/-!
# Which templates depend on a file

Two tables that are turned against each other: for each recorded template the files it depends on,
and for each file the templates that depend on it. A template does not count among its
own dependencies, and a file that no template depends on has no row.
-/

namespace ViewCompiler

/-- The dependencies of templates, looked at from both sides. -/
structure Dependents where
  forward : Table Text (List Text) := []
  reverse : Table Text (List Text) := []
deriving Repr

namespace Dependents

/-- The members of a list, each once. -/
def distinct : List Text → List Text
  | [] => []
  | first :: rest => if first ∈ rest then distinct rest else first :: distinct rest

/-- Enters a template in the row of a file. -/
def enter (template : Text) (reverse : Table Text (List Text)) (file : Text) : Table Text (List Text) :=
  match reverse.find? file with
  | none => reverse.put file [template]
  | some templates => if template ∈ templates then reverse else reverse.put file (templates ++ [template])

/-- Strikes a template from the row of a file, and the row if it gets empty. -/
def strike (template : Text) (reverse : Table Text (List Text)) (file : Text) : Table Text (List Text) :=
  match reverse.find? file with
  | none => reverse
  | some templates =>
    match templates.filter (· ≠ template) with
    | [] => reverse.drop file
    | others => reverse.put file others

/-- Forgets a template. -/
def remove (graph : Dependents) (template : Text) : Dependents :=
  match graph.forward.find? template with
  | none => graph
  | some files =>
    { forward := graph.forward.drop template
      reverse := files.foldl (strike template) graph.reverse }

/-- Records what a template depends on, in the place of what was recorded before. -/
def record (graph : Dependents) (template : Text) (files : List Text) : Dependents :=
  let graph := graph.remove template
  let files := distinct (files.filter (· ≠ template))
  { forward := graph.forward.put template files
    reverse := files.foldl (enter template) graph.reverse }

/-- The templates that depend on a file, if there are any. -/
def usedBy (graph : Dependents) (file : Text) : Option (List Text) := graph.reverse.find? file

/-- Whether a template is recorded. -/
def contains (graph : Dependents) (template : Text) : Bool := (graph.forward.find? template).isSome

end Dependents

end ViewCompiler

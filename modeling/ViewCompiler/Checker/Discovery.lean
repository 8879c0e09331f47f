import ViewCompiler.Checker

/-!
# Finding templates

Templates are found under the root, or under what is named: a directory stands for all
templates in it, a file for itself if it is a template. Import files are no templates.
-/

namespace ViewCompiler

/-- Why nothing can be found under what is named. -/
inductive DiscoveryFault
  | outside (input root : Text)
  | missing (input : Text)
deriving DecidableEq, Repr

/-- The wording of a fault. -/
def DiscoveryFault.message : DiscoveryFault → Text
  | .outside input root => input ++ " is outside the template root " ++ root
  | .missing input => input ++ " does not exist"

namespace Checker

/-- What is named: single templates, and directories to look through. -/
structure Named where
  templates : List Text := []
  directories : List Text := []
deriving DecidableEq, Repr

/-- Looks at what is named, one input after the other. -/
def named (checker : Checker) (environment : Environment) (config : Config) :
    List Text → Except DiscoveryFault Named
  | [] => .ok {}
  | input :: inputs =>
    let physical := checker.disk.canonical environment.cwd input
    match Physical.toLogical checker.root physical with
    | none => .error (.outside input checker.root)
    | some logical =>
      if checker.disk.isFile environment.cwd physical then
        (named checker environment config inputs).map fun more =>
          if config.isTemplate physical then { more with templates := logical :: more.templates } else more
      else if checker.disk.isDirectory environment.cwd physical then
        (named checker environment config inputs).map fun more =>
          { more with directories := logical :: more.directories }
      else .error (.missing input)

/-- The templates in directories. -/
def inDirectories (checker : Checker) (config : Config) (directories : List Text) : List Text :=
  directories.flatMap fun directory =>
    config.settings.project.extensions.flatMap fun extension =>
      (checker.cache.project.enumerate directory extension).map (·.path)

/-- Templates in order, each once, without import files. -/
def arranged (checker : Checker) (paths : List Text) : List Text :=
  Text.withoutRepeats (Text.sort (paths.filter fun path => !checker.isImport path))

/-- The templates under what is named, or all of them if nothing is. -/
def discover (checker : Checker) (environment : Environment) (config : Config) (inputs : List Text) :
    Except DiscoveryFault (List Text) :=
  if inputs.isEmpty then .ok (checker.arranged (checker.inDirectories config [['/']]))
  else
    (checker.named environment config inputs).map fun named =>
      checker.arranged (named.templates ++ checker.inDirectories config named.directories)

end Checker

end ViewCompiler

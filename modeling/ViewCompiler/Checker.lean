import ViewCompiler.Config
import ViewCompiler.Directory
import ViewCompiler.Report

/-!
# Checking the templates of a directory

A checker has the directory of the templates under a configuration, and the cache of
what was compiled of them. Views are checked by asking for a factory, pages by loading
them. What is up to date in the cache is not compiled again.
-/

namespace ViewCompiler

/-- Checks templates. -/
structure Checker where
  options : Options
  /-- The root of the templates as the configuration names it. -/
  root : Text
  cache : Cache Directory DirectoryToken

namespace Checker

/-- A checker with an empty cache. -/
def ofConfig (disk : Disk) (environment : Environment) (config : Config) (signals : Option Signals) :
    Checker :=
  let root := config.templateRoot disk environment
  { options := config.settings.options
    root
    cache := { project := { disk, root := disk.canonical environment.cwd root, signals } } }

/-- The checker when the disk is another one. -/
def onDisk (checker : Checker) (disk : Disk) : Checker :=
  { checker with cache := { checker.cache with project := { checker.cache.project with disk } } }

/-- The disk that the checker sees. -/
def disk (checker : Checker) : Disk := checker.cache.project.disk

/-- Which import files a template is compiled with. -/
def kindOf (path : Text) (allPages : Bool) : ImportsKind :=
  if allPages || Logical.underPages path then .pages else .views

/-- Whether a path names an import file. -/
def isImport (checker : Checker) (path : Text) : Bool :=
  let name := Logical.fileName path
  name == checker.options.viewImports || name == checker.options.pageImports

/-- What asking for a factory comes to in a report. -/
def statusOfFactory : Option (FactoryResult DirectoryToken) → TemplateStatus
  | some (.found factory _ precompiled) => .compiled factory.make.typeName precompiled
  | some (.failed _ failures) => .failed failures
  | some (.notFound _) | none => .notFound

/-- What loading a page comes to in a report. -/
def statusOfLoad : Option (Except LoadFault CompiledType) → TemplateStatus
  | some (.ok type) => .compiled type.name false
  | some (.error (.uncompiled _ failures)) => .failed failures
  | some (.error (.notFound _)) | none => .notFound

/-- Checks a template. -/
def check (checker : Checker) (path : Text) (kind : ImportsKind) : TemplateReport × Checker :=
  match kind with
  | .views =>
    let (result, cache) := checker.cache.createFactory checker.options path
    (⟨path, kind, statusOfFactory result⟩, { checker with cache })
  | .pages =>
    let (result, cache) := checker.cache.load checker.options path
    (⟨path, kind, statusOfLoad result⟩, { checker with cache })

/-- Tells the checker that a logical path changed, and how many signals that fired. -/
def notify (checker : Checker) (path : Text) : Nat × Checker :=
  match checker.cache.project.signals with
  | none => (0, checker)
  | some signals =>
    let (count, signals) := signals.notify path
    let cache := { checker.cache with project := { checker.cache.project with signals := some signals } }
    (count, { checker with cache := cache.note (Signals.noteOf path count) })

/-- Tells the checker that everything may have changed. -/
def notifyAll (checker : Checker) : Checker :=
  let project := checker.cache.project
  { checker with
    cache := { checker.cache with project := { project with signals := project.signals.map Signals.notifyAll } } }

/-- What there is to note, and the checker with nothing left to note. -/
def drain (checker : Checker) : List Event × Checker :=
  let (events, cache) := checker.cache.drain
  (events, { checker with cache })

/-- What the checks so far came to. -/
def tally (checker : Checker) : Event :=
  .tallied checker.cache.stats.compilations checker.cache.stats.hits checker.cache.stats.coalesced

end Checker

end ViewCompiler

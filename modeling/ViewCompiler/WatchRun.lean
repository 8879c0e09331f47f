import ViewCompiler.CheckRun
import ViewCompiler.Config.Session
import ViewCompiler.Disk.Difference

/-!
# Watching

A watch run checks all templates and then waits. What the file system reports is told to
the checker at once, if it waits to be told, and collected in batches. A batch that holds
the configuration file first reloads the configuration; if another one is in force then,
everything begins anew. Otherwise the templates that depend on a changed file are checked
again, and new templates for the first time. Every batch ends with one status block.
-/

namespace ViewCompiler

open Text

/-- A run that watches templates. -/
structure WatchRun where
  environment : Environment
  verbose : Bool
  /-- Whether every template is checked as a page. -/
  pages : Bool
  session : Session
  checker : Checker
  /-- The directory that is watched, in its one spelling. -/
  root : Text
  batch : Batch
  status : StatusBlock := {}

namespace WatchRun

/-- The run in which a session's configuration is in force, with nothing checked. There
is none if the directory to watch does not exist. -/
def ofSession (disk : Disk) (environment : Environment) (verbose pages : Bool) (session : Session)
    (status : StatusBlock) : Option WatchRun :=
  let config := session.config
  let root := disk.canonical environment.cwd (config.templateRoot disk environment)
  let signals : Option Signals :=
    match config.settings.watch.detection with
    | .notify => some {}
    | .poll => none
  if disk.exists? environment.cwd root then
    some {
      environment, verbose, pages, session, root, status
      checker := Checker.ofConfig disk environment config signals
      batch := { window := config.settings.watch.window } }
  else none

/-- The configuration in force. -/
def config (run : WatchRun) : Config := run.session.config

/-- The run when the disk is another one. -/
def onDisk (run : WatchRun) (disk : Disk) : WatchRun := { run with checker := run.checker.onDisk disk }

/-- Events as lines of the log, if they are asked for. -/
def log (run : WatchRun) (events : List Event) : Text :=
  Notice.printed run.verbose (events.map .detail)

/-- The logical path of a path below the watched directory. -/
def logical? (run : WatchRun) (path : Text) : Option Text :=
  (Physical.toLogical run.root path).or
    (Physical.toLogical run.root (run.checker.disk.canonical run.environment.cwd path))

/-- Shows a status block. -/
def showing (run : WatchRun) (block : Text × StatusBlock) : Text × WatchRun :=
  (block.1, { run with status := block.2 })

/-- What a successful check names: up to three templates by their names, more of them by
their number. -/
def compiledNames (reports : List TemplateReport) : Text :=
  if reports.length ≤ 3 then joined ", " (reports.map fun report => Logical.fileName report.path)
  else counted reports.length "template"

/-- Checks templates and shows what that came to. -/
def recheck (run : WatchRun) (clock : Text) (templates : List Text) : Text × WatchRun :=
  let (reports, checker, printed) :=
    run.checker.checkAll run.verbose false (Checker.jobsOf templates run.pages)
  let run := { run with checker }
  let failing := TemplateReport.failing reports
  let (block, run) := run.showing <|
    if failing.isEmpty then run.status.success clock ("compiled " ++ compiledNames reports)
    else
      run.status.error clock (TemplateReport.summary reports)
        (trimEnd (failing.flatMap TemplateReport.render))
  (printed ++ block, run)

/-- Checks all templates. -/
def recheckAll (run : WatchRun) (clock : Text) : Text × WatchRun :=
  match run.checker.discover run.environment run.config [] with
  | .ok templates => run.recheck clock templates
  | .error fault => run.showing (run.status.error clock "template discovery failed" fault.message)

/-- The beginning of a run. -/
def start (disk : Disk) (environment : Environment) (verbose pages : Bool) (clock : Text)
    (session : Session) : Option (Text × WatchRun) :=
  (ofSession disk environment verbose pages session {}).map fun run =>
    let said := Notice.printed verbose [.detail (.watching run.root), .watching run.checker.root]
    let (checked, run) := run.recheckAll clock
    (said ++ checked, run)

/-- Takes in what the file system reports. -/
def hear (run : WatchRun) (disk : Disk) (now : Nat) (happening : Happening) (paths : List Text) :
    Text × WatchRun :=
  let run := run.onDisk disk
  let changed := if (ChangeKind.ofHappening? happening).isSome then paths.filterMap run.logical? else []
  let checker := changed.foldl (fun checker path => (checker.notify path).2) run.checker
  let (told, checker) := checker.drain
  let (batch, noted) := run.batch.add disk run.environment.cwd now happening paths
  (run.log (told ++ noted), { run with checker, batch })

/-- Whether a path is watched: it lies in the watched directory or is the configuration
file. -/
def watches (run : WatchRun) (path : Text) : Bool :=
  Physical.liesIn run.root path || Physical.components path = Physical.components run.config.file

/-- Takes in the difference between the disk as it was last seen and as it is now. -/
def look (run : WatchRun) (disk : Disk) (now : Nat) : Text × WatchRun :=
  (run.checker.disk.differences disk).foldl (fun (said, run) (happening, place) =>
    let path := Disk.pathOf place
    if run.watches path then
      let (more, run) := run.hear disk now happening [path]
      (said ++ more, run)
    else (said, run)) ([], run.onDisk disk)

/-- Whether a change is one of the configuration file. -/
def isConfigChange (run : WatchRun) (change : Change) : Bool :=
  Physical.components (run.checker.disk.canonical run.environment.cwd change.path) =
    Physical.components run.config.file

/-- The templates that a change concerns: those that depend on the file, or the file
itself if it is a template that is not known yet. -/
def affectedBy (run : WatchRun) (change : Change) : List Text :=
  match run.logical? change.path with
  | none => []
  | some logical =>
    let dependents := run.checker.cache.dependentsOf logical
    if dependents.isEmpty && change.kind != .removed && run.config.isTemplate change.path &&
        !run.checker.isImport logical then [logical]
    else dependents

/-- The templates that a batch concerns, in order. -/
def affected (run : WatchRun) (changes : List Change) : List Text :=
  withoutRepeats (sort (changes.flatMap run.affectedBy))

/-- What there is to note about a batch. -/
def affectedNotes (run : WatchRun) (changes : List Change) : List Event :=
  changes.filterMap fun change => (run.logical? change.path).map (.affected change.kind.label)

/-- Checks what a batch concerns. -/
def recheckAffected (run : WatchRun) (clock : Text) (changes : List Change) : Text × WatchRun :=
  let noted := run.log (run.affectedNotes changes)
  let (shown, run) :=
    match run.affected changes with
    | [] =>
      run.showing
        (run.status.unchanged clock (counted changes.length "file" ++ " changed, nothing to recheck"))
    | templates => run.recheck clock templates
  (noted ++ shown, run)

/-- Begins anew with the configuration of a session. Signals that were handed out before
are never asked again. -/
def renew (run : WatchRun) (disk : Disk) (clock : Text) (session : Session) : Text × Option WatchRun :=
  match ofSession disk run.environment run.verbose run.pages session run.status with
  | none => ([], none)
  | some run =>
    let (checked, run) := run.recheckAll clock
    (run.log [.watching run.root] ++ checked, some run)

/-- Attends to a batch. There is no run afterwards if the directory to watch is gone. -/
def attend (run : WatchRun) (disk : Disk) (clock : Text) (changes : List Change) :
    Text × Option WatchRun :=
  let run := run.onDisk disk
  if changes.any run.isConfigChange then
    match run.session.reload disk run.environment with
    | (.ok true, session, notices) =>
      let said := Notice.printed run.verbose (notices ++ [.reloaded])
      let (text, renewed) := run.renew disk clock session
      (said ++ text, renewed)
    | (.ok false, _, _) =>
      let (text, run) := run.recheckAffected clock changes
      (text, some run)
    | (.error fault, _, notices) =>
      let (block, run) := run.showing (run.status.error clock "config reload failed" fault.message)
      (Notice.printed run.verbose notices ++ block, some run)
  else
    let (text, run) := run.recheckAffected clock changes
    (text, some run)

/-- Attends to the batch, if one is ready. -/
def tick (run : WatchRun) (disk : Disk) (now : Nat) (clock : Text) : Text × Option WatchRun :=
  match run.batch.take? now with
  | (none, _) => ([], some run)
  | (some changes, batch) => { run with batch }.attend disk clock changes

end WatchRun

end ViewCompiler

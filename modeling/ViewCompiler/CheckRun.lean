import ViewCompiler.Checker.Discovery
import ViewCompiler.Output
import ViewCompiler.Report.Display
import ViewCompiler.Report.Document

/-!
# Checking once

A check run finds the templates, checks them one after the other with a progress line,
and reports: as text, with what fails on the error stream and one line of summary, or as
a document. It fails if a template does.
-/

namespace ViewCompiler

open Text

namespace Checker

/-- Prints events as lines of the log, if they are asked for. -/
def logEvents (verbose : Bool) (terminal : Terminal) (events : List Event) : Text :=
  if verbose then events.flatMap fun event => terminal.log event.topic event.message else []

/-- The name of the counter that a template counts for. -/
def counterOf : ImportsKind → Text
  | .views => "views"
  | .pages => "pages"

/-- Checks templates one after the other. The progress line, if there is one, counts
them. -/
def checkEach (verbose : Bool) (checker : Checker) (terminal : Terminal) :
    List (Text × ImportsKind) → List TemplateReport × Checker × Terminal × Text
  | [] => ([], checker, terminal, [])
  | (path, kind) :: jobs =>
    let (report, checker) := checker.check path kind
    let (events, checker) := checker.drain
    let (counted, after) := terminal.advance (counterOf kind)
    let (reports, checker, last, printed) := checkEach verbose checker after jobs
    (report :: reports, checker, last, logEvents verbose terminal events ++ counted ++ printed)

/-- Each template with the import files that it is compiled with. -/
def jobsOf (paths : List Text) (allPages : Bool) : List (Text × ImportsKind) :=
  paths.map fun path => (path, kindOf path allPages)

/-- The counters of a progress line: how many views there are, and how many pages. -/
def totalsOf (jobs : List (Text × ImportsKind)) : List (Text × Nat) :=
  let views := jobs.countP fun job => job.2 == .views
  [("views", views), ("pages", jobs.length - views)]

/-- Checks templates, with a progress line if that is wanted, and tells what they came
to. -/
def checkAll (verbose progress : Bool) (checker : Checker) (jobs : List (Text × ImportsKind)) :
    List TemplateReport × Checker × Text :=
  let (begun, terminal) := if progress then ({} : Terminal).begin_ (totalsOf jobs) else ([], {})
  let (reports, checker, terminal, printed) := checkEach verbose checker terminal jobs
  let (ended, terminal) := terminal.finish
  (reports, checker, begun ++ printed ++ ended ++ logEvents verbose terminal [checker.tally])

end Checker

namespace CheckRun

/-- What is written about reports as text. -/
def displayed (reports : List TemplateReport) : List Output :=
  let failing := TemplateReport.failing reports
  failing.map (fun report => .err ('\n' :: report.render)) ++
    (if failing.isEmpty then [] else [.err ['\n']]) ++
    [.out (Notice.printed false [.summary (TemplateReport.summary reports)])]

/-- Checks what is named under a configuration. -/
def run (verbose : Bool) (disk : Disk) (environment : Environment) (config : Config)
    (paths : List Text) (pages json : Bool) : RunResult :=
  let checker := Checker.ofConfig disk environment config none
  match checker.discover environment config paths with
  | .error fault => ⟨[Output.complaint fault.message none], 1⟩
  | .ok [] => ⟨[.out (Notice.printed verbose [.noTemplates checker.root])], 0⟩
  | .ok templates =>
    let (reports, _, printed) := checker.checkAll verbose (!json) (Checker.jobsOf templates pages)
    let shown :=
      if json then [.out ((TemplateReport.documents reports).pretty ++ ['\n'])] else displayed reports
    let failed := (TemplateReport.failing reports).length
    if failed = 0 then ⟨.out printed :: shown, 0⟩
    else
      ⟨.out printed :: shown ++ [Output.complaint (counted failed "template" ++ " failed to compile") none], 1⟩

end CheckRun

end ViewCompiler

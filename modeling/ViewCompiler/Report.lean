import ViewCompiler.Page

/-!
# Reports on templates

What checking a template came to, and what a list of reports comes to together.
-/

namespace ViewCompiler

/-- What checking a template came to. -/
inductive TemplateStatus
  | compiled (typeName : Text) (precompiled : Bool)
  | failed (failures : List Failure)
  | notFound
deriving DecidableEq, Repr

/-- The report on a template. -/
structure TemplateReport where
  path : Text
  kind : ImportsKind
  status : TemplateStatus
deriving DecidableEq, Repr

namespace TemplateReport

/-- Whether there is no compiled template. -/
def isFailure (report : TemplateReport) : Bool :=
  match report.status with
  | .compiled .. => false
  | _ => true

/-- How many faults were found; a missing template is one. -/
def errorCount (report : TemplateReport) : Nat :=
  match report.status with
  | .compiled .. => 0
  | .failed failures => Failure.total failures
  | .notFound => 1

/-- The reports on templates that are not compiled. -/
def failing (reports : List TemplateReport) : List TemplateReport := reports.filter isFailure

end TemplateReport

end ViewCompiler

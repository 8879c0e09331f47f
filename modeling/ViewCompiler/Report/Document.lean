import ViewCompiler.Json
import ViewCompiler.Report

/-!
# Reports as documents

The same reports for programs to read. A report names its path, its kind and its status;
what follows depends on the status.
-/

namespace ViewCompiler

/-- The word for a kind. -/
def ImportsKind.label : ImportsKind → Text
  | .views => "view"
  | .pages => "page"

/-- A fault. -/
def Message.document (message : Message) : JsonValue :=
  .object [
    ("message", .text message.message),
    ("formatted_message", .text message.formatted),
    ("source_file_path", .text message.file),
    ("start_line", .number message.startLine),
    ("start_column", .number message.startColumn),
    ("end_line", .number message.endLine),
    ("end_column", .number message.endColumn)]

/-- The faults of a file. -/
def Failure.document (failure : Failure) : JsonValue :=
  .object [
    ("source_file_path", .text failure.file),
    ("source_file_content", .ofOption failure.content),
    ("compiled_content", .text failure.compiled),
    ("messages", .array (failure.messages.map Message.document))]

namespace TemplateReport

/-- What a report says beside its path and its kind. -/
def statusMembers : TemplateStatus → List (Text × JsonValue)
  | .compiled typeName precompiled =>
    [("status", .text "compiled"), ("type_name", .text typeName), ("is_precompiled", .boolean precompiled)]
  | .failed failures =>
    [("status", .text "failed"), ("failures", .array (failures.map Failure.document))]
  | .notFound => [("status", .text "not_found")]

/-- A report. -/
def document (report : TemplateReport) : JsonValue :=
  .object (("path", .text report.path) :: ("kind", .text report.kind.label) :: statusMembers report.status)

/-- All reports. -/
def documents (reports : List TemplateReport) : JsonValue := .array (reports.map document)

end TemplateReport

end ViewCompiler

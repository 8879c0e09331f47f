import ViewCompiler.Document
import ViewCompiler.Manifest
import ViewCompiler.Project

/-!
# Failures by file

What is wrong with a template is reported file by file: the files in the order in which
their first fault was found, the faults of a file in the order in which they were
found. A fault that names no file belongs to the template. Each file is shown with its
content, as far as it can be read.
-/

namespace ViewCompiler

open Text

/-- One fault of a file as reported: lines are counted from one. -/
structure Message where
  message : Text
  formatted : Text
  file : Text
  startLine : Nat
  startColumn : Nat
  endLine : Nat
  endColumn : Nat
deriving DecidableEq, Repr

/-- The faults of one file. -/
structure Failure where
  file : Text
  /-- The content of the file, if it can be read. -/
  content : Option Text
  /-- The page class, if there was one to find fault with. -/
  compiled : Text
  messages : List Message
deriving DecidableEq, Repr

/-- A source that exists but cannot be read. -/
structure Unreadable where
  path : Text
  fault : ReadFault
deriving DecidableEq, Repr

/-- The wording for a source that cannot be read. -/
def Unreadable.display (unreadable : Unreadable) : Text :=
  "failed to read " ++ unreadable.path ++ ": " ++ unreadable.fault.message

namespace Message

/-- The report of a template error. -/
def ofError (error : TemplateError) (file : Text) : Message :=
  let location := error.location
  { message := error.message
    formatted := error.display ++ " (" ++ decimal location.line ++ "," ++ decimal location.character ++ ") " ++
      error.message
    file
    startLine := location.line + 1
    startColumn := location.character
    endLine := location.line + 1
    endColumn := location.character + error.length }

/-- The report of a diagnostic. -/
def ofDiagnostic (diagnostic : Diagnostic) (file : Text) : Message :=
  { message := diagnostic.message
    formatted := file ++ "(" ++ decimal diagnostic.line ++ "," ++ decimal diagnostic.column ++ "): error " ++
      diagnostic.id.getD "RV0000" ++ ": " ++ diagnostic.message
    file
    startLine := diagnostic.line
    startColumn := diagnostic.column
    endLine := diagnostic.endLine
    endColumn := diagnostic.endColumn }

end Message

namespace Failure

/-- Adds a fault to the group of its file, or begins a new group at the end. -/
def enter {α : Type} (file : Text) (fault : α) : List (Text × List α) → List (Text × List α)
  | [] => [(file, [fault])]
  | (other, faults) :: groups =>
    if other = file then (other, faults ++ [fault]) :: groups
    else (other, faults) :: enter file fault groups

/-- Faults by file, the files in the order of their first fault. -/
def grouped {α : Type} (fileOf : α → Text) (faults : List α) : List (Text × List α) :=
  faults.foldl (fun groups fault => enter (fileOf fault) fault groups) []

/-- The file that a template error belongs to. -/
def fileOfError (template : Text) (error : TemplateError) : Text := error.location.file.getD template

/-- The file that a diagnostic belongs to. -/
def fileOfDiagnostic (template : Text) (diagnostic : Diagnostic) : Text := diagnostic.file.getD template

/-- The failure of one file with template errors. -/
def ofErrorGroup (content : Option Text) (group : Text × List TemplateError) : Failure :=
  ⟨group.1, content, [], group.2.map (Message.ofError · group.1)⟩

/-- The failure of one file with diagnostics. -/
def ofDiagnosticGroup (code : Text) (content : Option Text) (group : Text × List Diagnostic) : Failure :=
  ⟨group.1, content, code, group.2.map (Message.ofDiagnostic · group.1)⟩

/-- The failure of a source that cannot be read. -/
def ofUnreadable (unreadable : Unreadable) : Failure :=
  let reason := unreadable.fault.message
  { file := unreadable.path
    content := none
    compiled := []
    messages := [⟨reason, unreadable.path ++ ": " ++ reason, unreadable.path, 1, 0, 1, 0⟩] }

end Failure

end ViewCompiler

import ViewCompiler.Text

/-!
# Documents and places in them

A document is a text with the logical path of the file it was read from; texts that
come from no file, such as default imports, have none. Places count lines and
characters from zero.
-/

namespace ViewCompiler

/-- The text of a template or import. -/
structure SourceDocument where
  file : Option Text
  content : Text
deriving DecidableEq, Repr

/-- A template with the imports that apply to it: default imports first, then import
files from the root downwards. -/
structure CodeDocument where
  source : SourceDocument
  imports : List SourceDocument
  /-- The logical path of the template. -/
  path : Text
deriving DecidableEq, Repr

/-- A place in a document; without a file it is in the template being compiled. -/
structure Location where
  file : Option Text := none
  /-- Characters from the beginning of the document. -/
  absolute : Nat
  line : Nat
  /-- Characters from the beginning of the line. -/
  character : Nat
deriving DecidableEq, Repr

/-- What is wrong with a template, where, and over how many characters. -/
structure TemplateError where
  message : Text
  location : Location
  length : Nat
deriving DecidableEq, Repr

/-- The error with its place, on one line. -/
def TemplateError.display (error : TemplateError) : Text :=
  "Error @ (" ++ Text.decimal error.location.absolute ++ ":" ++ Text.decimal error.location.line ++ "," ++
    Text.decimal error.location.character ++ ")(" ++ Text.decimal error.length ++ ") - [" ++
    error.message ++ "]"

end ViewCompiler

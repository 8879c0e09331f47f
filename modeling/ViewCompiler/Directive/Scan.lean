import ViewCompiler.Directive.Block

/-!
# Scanning a document

A document is scanned line by line. A line that no block is open on and that reads as
a directive is accepted or refused as one; every other line is markup and may open and
close blocks. At the end, a block that is still open is an error at its opener.
-/

namespace ViewCompiler

open Text

/-- What a document holds. -/
structure Scanned where
  /-- The accepted directives in order. -/
  directives : List Directive := []
  /-- The other lines in order, each with its number. -/
  markup : List (Nat × Text) := []
  errors : List TemplateError := []
deriving DecidableEq, Repr

namespace Scanned

/-- What all errors of a document share. -/
structure Source where
  /-- The file that errors name. -/
  file : Option Text
  /-- Whether the document is an import. -/
  inImport : Bool

/-- Scans lines from number `line` on, the first of them beginning `offset` characters
into the document. -/
def scanRows (source : Source) (line offset : Nat) (block : Option OpenBlock)
    (accepted : List DirectiveKind) : List Text → Scanned
  | [] =>
    match block with
    | none => {}
    | some block => { errors := [⟨DirectiveFault.openBlock.message, block.location, 1⟩] }
  | row :: rows =>
    let text := chopReturn row
    let next := offset + row.length + 1
    match block, Directive.read? text with
    | none, some written =>
      let value := trim written.rest
      let endColumn := (trimEnd text).length
      match Directive.fault? accepted source.inImport written.kind value with
      | some fault =>
        let rest := scanRows source (line + 1) next none accepted rows
        let location : Location := ⟨source.file, offset + written.column, line, written.column⟩
        { rest with errors := ⟨fault.message, location, endColumn - written.column⟩ :: rest.errors }
      | none =>
        let rest := scanRows source (line + 1) next none (written.kind :: accepted) rows
        let directive : Directive := ⟨written.kind, unquote value, line, written.column, endColumn⟩
        { rest with directives := directive :: rest.directives }
    | _, _ =>
      let place (left : Nat) : Location :=
        ⟨source.file, offset + (text.length - left), line, text.length - left⟩
      let rest := scanRows source (line + 1) next (Block.afterLine place block text) accepted rows
      { rest with markup := (line, text) :: rest.markup }

/-- Scans a document. `file` is the file that its errors name. -/
def ofDocument (document : SourceDocument) (file : Option Text) (inImport : Bool) : Scanned :=
  scanRows ⟨file, inImport⟩ 0 0 none [] (rows document.content)

end Scanned

end ViewCompiler

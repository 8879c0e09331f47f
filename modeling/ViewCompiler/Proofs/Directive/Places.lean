import ViewCompiler.Proofs.Directive.Rows

/-!
# Where a scan finds things

What a scan finds has a line and a column, and it is there: the row with this line number
holds the directive that was accepted or refused, or the opener of the block that was never
closed. It is there over its whole length too. Lines and columns count from zero.
-/

namespace ViewCompiler.Scanned

open Text

variable {source : Source} {line offset : Nat} {block : Option OpenBlock}
  {accepted : List DirectiveKind} {rows : List Text}

/-- A row holds what is refused with a message: a directive whose `@` is in the given
column, or an `@` there that opens a block. -/
inductive Refuses (row : Text) : (message : Text) → (column : Nat) → Prop
  | directive (written : Directive.Written) (accepted : List DirectiveKind) (inImport : Bool)
      (fault : DirectiveFault) (read : Directive.read? (chopReturn row) = some written)
      (refused : Directive.fault? accepted inImport written.kind (trim written.rest) = some fault) :
      Refuses row fault.message written.column
  | opener (before inside : Text) (shape : chopReturn row = before ++ '@' :: inside)
      (opens : Block.opens inside = true) :
      Refuses row DirectiveFault.openBlock.message before.length

/-- The same with the length of what is refused: a directive is refused as a whole, and of a
block its `@`. -/
inductive Refusal (row : Text) : (message : Text) → (column length : Nat) → Prop
  | directive (written : Directive.Written) (accepted : List DirectiveKind) (inImport : Bool)
      (fault : DirectiveFault) (read : Directive.read? (chopReturn row) = some written)
      (refused : Directive.fault? accepted inImport written.kind (trim written.rest) = some fault) :
      Refusal row fault.message written.column ((trimEnd (chopReturn row)).length - written.column)
  | opener (before inside : Text) (shape : chopReturn row = before ++ '@' :: inside)
      (opens : Block.opens inside = true) :
      Refusal row DirectiveFault.openBlock.message before.length 1

/-- What is refused with a length is refused. -/
theorem Refusal.refuses {row message : Text} {column length : Nat}
    (refusal : Refusal row message column length) : Refuses row message column := by
  cases refusal with
  | directive written accepted inImport fault read refused =>
    exact .directive written accepted inImport fault read refused
  | opener before inside shape opens => exact .opener before inside shape opens

/-- The `@` of a directive is not trimmed from its line. -/
theorem read?_column {line : Text} {written : Directive.Written}
    (read : Directive.read? line = some written) : written.column < (trimEnd line).length := by
  obtain ⟨indent, rfl, column, -⟩ := Directive.read?_shape read
  have solid : trimEnd ('@' :: (written.kind.keyword ++ written.rest)) =
      '@' :: trimEnd (written.kind.keyword ++ written.rest) := trimEnd_cons _ (by decide)
  rw [trimEnd_append, solid, if_neg (List.cons_ne_nil _ _), ← column, List.length_append]
  exact Nat.lt_add_of_pos_right (Nat.succ_pos _)

/-- What is refused is not empty and does not go beyond its row. -/
theorem Refusal.within {row message : Text} {column length : Nat}
    (refusal : Refusal row message column length) :
    0 < length ∧ column + length ≤ (chopReturn row).length := by
  cases refusal with
  | directive written accepted inImport fault read refused =>
    have column := read?_column read
    have part := (trimEnd_sublist (chopReturn row)).length_le
    omega
  | opener before inside shape opens => simp [shape]

/-- What a scan refuses is on the row of its line, unless it is the block that was open
before the first row. -/
theorem error_row {error : TemplateError}
    (member : error ∈ (scanRows source line offset block accepted rows).errors) :
    (∃ opened, block = some opened ∧
      error = ⟨DirectiveFault.openBlock.message, opened.location, 1⟩) ∨
    ∃ row, Numbered rows line error.location.line row ∧
      Refusal row error.message error.location.character error.length := by
  rcases error_origin member with opened | ⟨index, row, found, arises⟩
  · exact .inl opened
  · cases arises with
    | directive written known fault read refused =>
      exact .inr ⟨row, .at found, .directive written known source.inImport fault read refused⟩
    | opener before inside shape opens =>
      exact .inr ⟨row, .at found, .opener before inside shape opens⟩

/-- What a scan of a document refuses is on the row of its line. -/
theorem ofDocument_refusal {document : SourceDocument} {file : Option Text} {inImport : Bool}
    {error : TemplateError} (member : error ∈ (ofDocument document file inImport).errors) :
    ∃ row, (Text.rows document.content)[error.location.line]? = some row ∧
      Refusal row error.message error.location.character error.length := by
  rcases error_row member with ⟨_, none, _⟩ | ⟨row, ⟨_, found⟩, refusal⟩
  · cases none
  · exact ⟨row, found, refusal⟩

/-- So is what it accepts. -/
theorem ofDocument_directive_row {document : SourceDocument} {file : Option Text} {inImport : Bool}
    {directive : Directive} (member : directive ∈ (ofDocument document file inImport).directives) :
    ∃ row, (Text.rows document.content)[directive.line]? = some row ∧ Declares row directive := by
  obtain ⟨row, ⟨_, found⟩, declares⟩ := directive_row member
  exact ⟨row, found, declares⟩

/-- A directive is not empty and does not go beyond its row. -/
theorem Declares.within {row : Text} {directive : Directive} (declares : Declares row directive) :
    directive.column < directive.endColumn ∧ directive.endColumn ≤ (chopReturn row).length := by
  obtain ⟨written, read, shape⟩ := declares
  rw [shape]
  exact ⟨read?_column read, (trimEnd_sublist (chopReturn row)).length_le⟩

end ViewCompiler.Scanned

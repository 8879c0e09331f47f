import ViewCompiler.Proofs.Directive.Places

/-!
# Positions in the text of a document

Rows are counted by the line feeds before them, and characters from the beginning of the
document as well as from the beginning of their row. The two counts of an error agree: it
stands at an `@`, as many characters behind the beginning of its row as its column says, and
it ends on its row. The columns of an accepted directive reach from its `@` to the last
character of its row that is not blank. A carriage return before a line feed counts as a
character of its row, and nothing is ever reported on it.
-/

namespace ViewCompiler

open Text

/-- A row stands in a text behind so many line feeds and so many characters: it begins the
text or follows a line feed, it ends the text or a line feed follows it, and it has none. -/
def Text.RowAt (content : Text) (line start : Nat) (row : Text) : Prop :=
  ∃ before after, content = before ++ (row ++ after) ∧
    before.count '\n' = line ∧ before.length = start ∧
    (before = [] ∨ ∃ front, before = front ++ ['\n']) ∧
    (after = [] ∨ ∃ back, after = '\n' :: back) ∧ '\n' ∉ row

/-- The columns of a directive on a row: blanks, then the `@`, the keyword and the value, which
ends in the last character of the row that is not blank. -/
def Directive.Covers (directive : Directive) (row : Text) : Prop :=
  ∃ indent value tail, row = indent ++ '@' :: (directive.kind.keyword ++ value) ++ tail ∧
    directive.column = indent.length ∧
    directive.endColumn = (indent ++ '@' :: (directive.kind.keyword ++ value)).length ∧
    (∀ char ∈ indent, isBlank char = true) ∧ (∀ char ∈ tail, isBlank char = true) ∧
    (∃ front last, directive.kind.keyword ++ value = front ++ [last] ∧ isBlank last = false) ∧
    directive.value = unquote (trim value)

namespace Text.RowAt

variable {content row : Text} {line start column : Nat} {char : Char}

/-- Characters of a row are characters of the text. -/
theorem getElem? (stands : RowAt content line start row) (found : row[column]? = some char) :
    content[start + column]? = some char := by
  obtain ⟨before, after, rfl, -, rfl, -⟩ := stands
  obtain ⟨below, -⟩ := List.getElem?_eq_some_iff.mp found
  rw [List.getElem?_append_right (Nat.le_add_right _ _), Nat.add_sub_cancel_left,
    List.getElem?_append_left below, found]

end Text.RowAt

/-- A text is one row, or its first row ends at a line feed with the other rows behind it. -/
theorem Text.rows_split (content : Text) :
    ('\n' ∉ content ∧ rows content = [content]) ∨
      ∃ row rest, content = row ++ '\n' :: rest ∧ '\n' ∉ row ∧ rows content = row :: rows rest := by
  have free {text : Text} (absent : '\n' ∉ text) : ∀ char ∈ text, (char == '\n') = false := by
    intro char member
    exact beq_false_of_ne fun same => absent (same ▸ member)
  by_cases feed : '\n' ∈ content
  · obtain ⟨row, rest, rfl, single⟩ := List.eq_append_cons_of_mem feed
    exact .inr ⟨row, rest, rfl, single, pieces_append row rest '\n' (free single) rfl⟩
  · exact .inl ⟨feed, pieces_of_free (free feed)⟩

namespace Scanned

/-- The rows of a text stand in it where the rows before them end. -/
theorem rowAt_startOf {content row : Text} {line : Nat}
    (found : (Text.rows content)[line]? = some row) :
    RowAt content line (startOf (Text.rows content) line) row := by
  induction line generalizing content with
  | zero =>
    rcases content.rows_split with ⟨single, split⟩ | ⟨first, rest, rfl, single, split⟩
    · rw [split] at found ⊢
      obtain rfl : content = row := Option.some.inj found
      exact ⟨[], [], by simp, rfl, rfl, .inl rfl, .inl rfl, single⟩
    · rw [split] at found ⊢
      obtain rfl : first = row := Option.some.inj found
      exact ⟨[], '\n' :: rest, rfl, rfl, rfl, .inl rfl, .inr ⟨rest, rfl⟩, single⟩
  | succ line inductionHypothesis =>
    rcases content.rows_split with ⟨-, split⟩ | ⟨first, rest, rfl, free, split⟩
    · rw [split] at found
      cases found
    · rw [split, List.getElem?_cons_succ] at found
      obtain ⟨before, after, rest, feeds, start, begins, ends, single⟩ := inductionHypothesis found
      refine ⟨first ++ '\n' :: before, after, by simp [rest], ?_, ?_, .inr ?_, ends, single⟩
      · rw [List.count_append, List.count_eq_zero.mpr free, List.count_cons_self, feeds]
        omega
      · rw [split, startOf, List.length_append, List.length_cons, start]
        omega
      · rcases begins with rfl | ⟨front, rfl⟩
        · exact ⟨first, rfl⟩
        · exact ⟨first ++ '\n' :: front, by simp⟩

/-- An error that arises on a row stands at an `@` of it, and it ends on the row. -/
theorem ArisesOn.within {source : Source} {line offset : Nat} {row : Text} {error : TemplateError}
    (arises : ArisesOn source line offset row error) :
    error.location.line = line ∧
      error.location.absolute = offset + error.location.character ∧
      row[error.location.character]? = some '@' ∧
      1 ≤ error.length ∧ error.location.character + error.length ≤ (chopReturn row).length := by
  have marked {indent rest : Text} (shape : chopReturn row = indent ++ '@' :: rest) :
      row[indent.length]? = some '@' := by
    obtain ⟨ending, whole, -⟩ := chopReturn_parts row
    rw [whole, shape, List.append_assoc, List.getElem?_append_right (Nat.le_refl _), Nat.sub_self]
    rfl
  cases arises with
  | directive written known fault read refused =>
    obtain ⟨indent, shape, column, -⟩ := Directive.read?_shape read
    have reaches := read?_column read
    have part := (trimEnd_sublist (chopReturn row)).length_le
    have here := marked shape
    rw [column] at here
    refine ⟨rfl, rfl, here, ?_, ?_⟩ <;> simp only [refusedOn] <;> omega
  | opener before inside shape opens =>
    refine ⟨rfl, rfl, marked shape, Nat.le_refl 1, ?_⟩
    simp [shape]

/-- What follows the trimmed text of a row is blank, its carriage return included. -/
theorem row_trimmed (row : Text) :
    ∃ tail, row = trimEnd (chopReturn row) ++ tail ∧ ∀ char ∈ tail, isBlank char = true := by
  obtain ⟨ending, whole, carriage⟩ := chopReturn_parts row
  obtain ⟨⟨tail, parts, blank⟩, -⟩ := trimEnd_parts (chopReturn row)
  refine ⟨tail ++ ending, ?_, ?_⟩
  · exact whole.trans ((congrArg (· ++ ending) parts).trans (List.append_assoc _ _ _))
  · intro char member
    rcases List.mem_append.mp member with among | behind
    · exact blank char among
    · rcases carriage with rfl | rfl
      · cases behind
      · obtain rfl := List.mem_singleton.mp behind
        decide

/-- A keyword is not trimmed away, and only the rest behind it is trimmed. -/
theorem trimEnd_keyword (kind : DirectiveKind) (rest : Text) :
    trimEnd (kind.keyword ++ rest) = kind.keyword ++ trimEnd rest := by
  have solid : trimEnd kind.keyword = kind.keyword := by cases kind <;> decide
  rw [trimEnd_append]
  split
  · rename_i empty
    rw [solid, empty, List.append_nil]
  · rfl

/-- On a line, too, only the rest behind the keyword is trimmed. -/
theorem trimEnd_written (indent : Text) (kind : DirectiveKind) (rest : Text) :
    trimEnd (indent ++ '@' :: (kind.keyword ++ rest)) =
      indent ++ '@' :: (kind.keyword ++ trimEnd rest) := by
  rw [trimEnd_append, trimEnd_cons _ (by decide), trimEnd_keyword, if_neg (List.cons_ne_nil _ _)]

/-- With its keyword, the trimmed rest of a directive ends in a character that is not blank. -/
theorem keyword_ends (kind : DirectiveKind) (rest : Text) :
    ∃ front last, kind.keyword ++ trimEnd rest = front ++ [last] ∧ isBlank last = false := by
  obtain ⟨-, ends⟩ := trimEnd_parts (kind.keyword ++ rest)
  have worded : kind.keyword ≠ [] := by cases kind <;> decide
  rw [trimEnd_keyword] at ends
  exact ends.resolve_left fun empty => worded (List.append_eq_nil_iff.mp empty).1

/-- An accepted directive covers its row from its `@` to the last character that is not blank. -/
theorem acceptedOn_covers {line : Nat} {row : Text} {written : Directive.Written}
    (read : Directive.read? (chopReturn row) = some written) :
    (acceptedOn line row written).Covers row := by
  obtain ⟨indent, shape, column, blank⟩ := Directive.read?_shape read
  obtain ⟨tail, whole, faint⟩ := row_trimmed row
  have kept : trimEnd (chopReturn row) =
      indent ++ '@' :: (written.kind.keyword ++ trimEnd written.rest) := by
    rw [shape, trimEnd_written]
  have value : unquote (trim written.rest) = unquote (trim (trimEnd written.rest)) := by
    rw [trim_trimEnd]
  rw [kept] at whole
  exact ⟨indent, trimEnd written.rest, tail, whole, column.symm, congrArg List.length kept, blank,
    faint, keyword_ends written.kind written.rest, value⟩

/-- Every error of a scan is on a row of the text, at an `@`, as many characters behind the
beginning of the row as its column says, and it ends on the row; every accepted directive
covers its row from its `@` to the last character that is not blank. -/
theorem positions_exact (document : SourceDocument) (file : Option Text) (inImport : Bool) :
    let scanned := ofDocument document file inImport
    (∀ error ∈ scanned.errors, ∃ row start,
      (Text.rows document.content)[error.location.line]? = some row ∧
      RowAt document.content error.location.line start row ∧
      document.content[error.location.absolute]? = some '@' ∧
      error.location.absolute = start + error.location.character ∧
      1 ≤ error.length ∧ error.location.character + error.length ≤ (chopReturn row).length) ∧
    ∀ directive ∈ scanned.directives, ∃ row start,
      (Text.rows document.content)[directive.line]? = some row ∧
      RowAt document.content directive.line start row ∧ directive.Covers row := by
  intro scanned
  constructor
  · intro error member
    rcases error_origin member with ⟨_, none, _⟩ | ⟨index, row, found, arises⟩
    · cases none
    · rw [Nat.zero_add, Nat.zero_add] at arises
      obtain ⟨line, absolute, marked, length, ends⟩ := arises.within
      have stands := rowAt_startOf found
      refine ⟨row, _, line ▸ found, line ▸ stands, ?_, absolute, length, ends⟩
      rw [absolute]
      exact stands.getElem? marked
  · intro directive member
    obtain ⟨index, row, written, -, found, read, -, -, rfl⟩ := directive_origin member
    rw [Nat.zero_add]
    exact ⟨row, _, found, rowAt_startOf found, acceptedOn_covers read⟩

/-- Behind a row with a letter that is not plain and a carriage return, the second row begins
after ten characters. -/
theorem positions_exact_returns :
    let document : SourceDocument := ⟨none, "@using É\r\n  @model "⟩
    let error : TemplateError := ⟨(DirectiveFault.noValue .model).message, ⟨none, 12, 1, 2⟩, 6⟩
    let directive : Directive := ⟨.opens, "É", 0, 0, 8⟩
    (ofDocument document none false).errors = [error] ∧
      (ofDocument document none false).directives = [directive] ∧
      document.content[error.location.absolute]? = some '@' ∧
      ∃ row start, RowAt document.content directive.line start row ∧ directive.Covers row := by
  intro document error directive
  have errors : (ofDocument document none false).errors = [error] := by decide +kernel
  have directives : (ofDocument document none false).directives = [directive] := by decide +kernel
  obtain ⟨ofErrors, ofDirectives⟩ := positions_exact document none false
  obtain ⟨_, _, _, _, marked, _⟩ := ofErrors error (errors ▸ List.mem_singleton_self error)
  obtain ⟨row, start, _, stands, covers⟩ :=
    ofDirectives directive (directives ▸ List.mem_singleton_self directive)
  exact ⟨errors, directives, marked, row, start, stands, covers⟩

end Scanned

end ViewCompiler

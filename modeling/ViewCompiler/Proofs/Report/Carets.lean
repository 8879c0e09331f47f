import ViewCompiler.Report.Display
import ViewCompiler.Proofs.Text.Cutting
import ViewCompiler.Proofs.Text.Decimal
import ViewCompiler.Proofs.Text.Trimming

/-!
# Which characters carets stand under

A fault is printed with its line behind a margin, and below that a row of carets. What a
terminal shows of these rows is what they hold besides control sequences, and as the margins
are equally wide, the carets stand under the characters of the line in the columns behind the
margin. Which these are can be read off the printed text, so it cannot be two extents at once.

The columns of a message are taken to count from one. A diagnostic counts so, and its carets
stand under what it is about. A template error counts from zero, and its carets stand one
column further left.
-/

namespace ViewCompiler

open Text

namespace Screen

/-- What a terminal shows of a text: everything but control sequences, each of them from an
escape up to the first letter. The flag says whether the text begins inside of one. -/
def shown : (inside : Bool) → Text → Text
  | _, [] => []
  | true, char :: rest => shown (!char.isAlpha) rest
  | false, char :: rest => if char = escape then shown true rest else char :: shown false rest

/-- A text prints a line behind a margin, and below it carets under the characters of the line
from one column up to another. -/
def Underlines (printed line : Text) (start stop : Nat) : Prop :=
  ∃ margin carets, printed = margin ++ line ++ '\n' :: carets ++ ['\n'] ∧
    '\n' ∉ margin ∧ '\n' ∉ carets ∧
    ∀ column, (shown false carets)[column]? = some '^' ↔
      (shown false margin).length + start ≤ column ∧ column < (shown false margin).length + stop

variable {text front printed line : Text} {start stop : Nat}

/-- A text without escapes is shown as it is. -/
theorem shown_plain (plain : escape ∉ front) (rest : Text) :
    shown false (front ++ rest) = front ++ shown false rest := by
  induction front with
  | nil => rfl
  | cons char front inductionHypothesis =>
    obtain ⟨solid, further⟩ := not_or.mp (mt List.mem_cons.mpr plain)
    rw [List.cons_append, shown, if_neg (Ne.symm solid), inductionHypothesis further]
    rfl

/-- The weight and the colour of a text are not shown. -/
theorem shown_dimmed (plain : escape ∉ text) (rest : Text) :
    shown false (dimmed text ++ rest) = text ++ shown false rest := by
  have opened : shown false (dimmed text ++ rest) = shown false (text ++ (control "0m" ++ rest)) := by
    rw [dimmed, styled, List.append_assoc, List.append_assoc]
    rfl
  rw [opened, shown_plain plain]
  rfl

/-- Colour is not shown. -/
theorem shown_red (plain : escape ∉ text) (rest : Text) :
    shown false (red text ++ rest) = text ++ shown false rest := by
  have opened : shown false (red text ++ rest) = shown false (text ++ (control "39m" ++ rest)) := by
    rw [red, styled, List.append_assoc, List.append_assoc]
    rfl
  rw [opened, shown_plain plain]
  rfl

/-- Behind other characters, carets take up the columns that there are carets. -/
theorem getElem?_carets (free : '^' ∉ front) (count column : Nat) :
    (front ++ List.replicate count '^')[column]? = some '^' ↔
      front.length ≤ column ∧ column < front.length + count := by
  rcases Nat.lt_or_ge column front.length with before | behind
  · rw [List.getElem?_append_left before]
    constructor
    · intro caret
      exact absurd (List.mem_of_getElem? caret) free
    · omega
  · rw [List.getElem?_append_right behind, List.getElem?_replicate]
    split
    · exact ⟨fun _ => ⟨behind, by omega⟩, fun _ => rfl⟩
    · exact ⟨nofun, fun within => by omega⟩

/-- What is printed settles where the carets stand, if there are any. -/
theorem Underlines.unique {left right : Nat} (first : Underlines printed line start stop)
    (second : Underlines printed line left right) (ordered : start < stop) :
    left = start ∧ right = stop := by
  obtain ⟨margin, carets, rfl, -, single, columns⟩ := first
  obtain ⟨margin', carets', same, -, single', columns'⟩ := second
  have free {row : Text} (single : '\n' ∉ row) : ∀ char ∈ row, (char == '\n') = false := by
    intro char member
    exact beq_eq_false_iff_ne.mpr fun feed => single (feed ▸ member)
  have rows := List.append_cancel_right same
  have cut : cutLast? (· == '\n') (margin ++ line ++ '\n' :: carets) =
      some (margin ++ line, carets) :=
    cutLast?_append '\n' rfl (free single)
  rw [rows, cutLast?_append '\n' rfl (free single'), Option.some_inj, Prod.mk.injEq] at cut
  obtain ⟨above, rfl⟩ := cut
  obtain rfl := List.append_cancel_right above
  have both (column : Nat) := (columns column).symm.trans (columns' column)
  have atStart := (both ((shown false margin').length + start)).mp (by omega)
  have atLeft := (both ((shown false margin').length + left)).mpr (by omega)
  have atEnd := (both ((shown false margin').length + (stop - 1))).mp (by omega)
  have atRight := (both ((shown false margin').length + (right - 1))).mpr (by omega)
  omega

end Screen

namespace Snippet

variable {texts : List Text} {message : Message} {line number : Text} {start stop : Nat}

/-- What stands in front of a line, a number or as many blanks first. -/
def margin (lead : Text) : Text := "  " ++ lead ++ " " ++ Screen.dimmed ['|'] ++ " "

/-- A margin is shown as its lead between two blanks and a bar. -/
theorem shown_margin {lead seen : Text}
    (leads : ∀ rest, Screen.shown false (lead ++ rest) = seen ++ Screen.shown false rest)
    (rest : Text) : Screen.shown false (margin lead ++ rest) =
      "  " ++ seen ++ " | " ++ Screen.shown false rest := by
  have whole : margin lead ++ rest =
      "  " ++ (lead ++ (" " ++ (Screen.dimmed ['|'] ++ (" " ++ rest)))) := by
    simp [margin]
  rw [whole, Screen.shown_plain (by decide), leads, Screen.shown_plain (by decide),
    Screen.shown_dimmed (by decide), Screen.shown_plain (by decide)]
  simp

/-- A margin is on one line if its lead is. -/
theorem newline_not_mem_margin {lead : Text} (single : '\n' ∉ lead) : '\n' ∉ margin lead := by
  have bar : '\n' ∉ Screen.dimmed ['|'] := by decide
  simp [margin, single, bar]

/-- A line that is printed with a fault has carets under it where the fault extends. -/
theorem render_underlines (found : line? texts message = some line)
    (reaches : extent line.length message = (start, stop)) (ordered : start ≤ stop) :
    ∃ printed, render texts message = some printed ∧
      Screen.Underlines printed line start stop := by
  have digits : ∀ char ∈ decimal message.startLine, char.isDigit = true := fun char member =>
    isDigit_of_mem_decimal member
  have plain : Screen.escape ∉ decimal message.startLine := fun member => nomatch digits _ member
  have single : '\n' ∉ decimal message.startLine := fun member => nomatch digits _ member
  rw [render, found, Option.map_some, reaches]
  generalize decimal message.startLine = number at plain single
  have blank (count : Nat) : Screen.escape ∉ List.replicate count ' ' := by simp [Screen.escape]
  have caret (count : Nat) : Screen.escape ∉ List.replicate count '^' := by simp [Screen.escape]
  have above : Screen.shown false (margin (Screen.dimmed number)) = "  " ++ number ++ " | " := by
    rw [← List.append_nil (margin _), shown_margin (Screen.shown_dimmed plain)]
    exact List.append_nil _
  have below : Screen.shown false (margin (List.replicate number.length ' ') ++
        List.replicate start ' ' ++ Screen.red (List.replicate (stop - start) '^')) =
      "  " ++ List.replicate number.length ' ' ++ " | " ++ List.replicate start ' ' ++
        List.replicate (stop - start) '^' := by
    rw [List.append_assoc, shown_margin (Screen.shown_plain (blank _)), Screen.shown_plain (blank _),
      ← List.append_nil (Screen.red _), Screen.shown_red (caret _), Screen.shown]
    simp
  refine ⟨_, rfl, margin (Screen.dimmed number),
    margin (List.replicate number.length ' ') ++ List.replicate start ' ' ++
      Screen.red (List.replicate (stop - start) '^'), ?_, ?_, ?_, ?_⟩
  · simp [margin]
  · apply newline_not_mem_margin
    simp [Screen.dimmed, Screen.styled, Screen.control, Screen.escape, single]
  · have free : '\n' ∉ margin (List.replicate number.length ' ') :=
      newline_not_mem_margin (by simp)
    simp [free, Screen.red, Screen.styled, Screen.control, Screen.escape]
  · intro column
    rw [above, below, Screen.getElem?_carets (by simp)]
    simp only [List.length_append, List.length_replicate]
    omega

/-- A template error extends over the characters of its line one column before its own. -/
theorem extent_ofError {width : Nat} {error : TemplateError} (file : Text)
    (nonempty : 0 < error.length)
    (within : max (error.location.character + error.length - 1) 1 ≤ width) :
    extent width (.ofError error file) = (error.location.character - 1,
      max (error.location.character + error.length - 1) 1) := by
  simp only [extent, Message.ofError, ↓reduceIte, Prod.mk.injEq]
  omega

/-- A fault on one line whose columns count from one is underlined exactly where it extends. -/
theorem extent_ofDiagnostic {width : Nat} {diagnostic : Diagnostic} (file : Text)
    (column : diagnostic.column = start + 1) (endColumn : diagnostic.endColumn = stop + 1)
    (single : diagnostic.endLine = diagnostic.line) (ordered : start < stop) (within : stop ≤ width) :
    extent width (.ofDiagnostic diagnostic file) = (start, stop) := by
  simp only [extent, Message.ofDiagnostic, column, endColumn, single, ↓reduceIte, Prod.mk.injEq]
  omega

end Snippet

/-- The first line that is printed of a fault. -/
def Message.headline (message : Message) : Text :=
  arrow ++ Screen.dimmed (decimal message.startLine ++ ":" ++ decimal message.startColumn) ++ " " ++
    message.message ++ "\n"

namespace Failure

/-- The lines of the file of a failure, as far as they are known. -/
def lines (failure : Failure) : List Text :=
  match failure.content with
  | some content => Text.lines content
  | none => []

/-- A failure prints one of its faults with a line of its file, and with carets under some
characters of this line, from one column up to another. -/
def Underlines (failure : Failure) (message : Message) (line start stop : Nat) : Prop :=
  ∃ content text printed, failure.content = some content ∧ (Text.lines content)[line]? = some text ∧
    message.render failure.lines = message.headline ++ printed ∧
    Screen.Underlines printed text start stop ∧ start < stop ∧ stop ≤ text.length

variable {failure : Failure} {message : Message} {content row : Text} {line start stop : Nat}

/-- A fault that extends over part of a row of the file is underlined there. -/
theorem underlines_of_row (known : failure.content = some content)
    (stands : (rows content)[line]? = some row) (numbered : message.startLine = line + 1)
    (reaches : ∀ width, stop ≤ width → Snippet.extent width message = (start, stop))
    (ordered : start < stop) (within : stop ≤ (chopReturn row).length) :
    failure.Underlines message line start stop := by
  have solid : row ≠ [] := by
    rintro rfl
    exact absurd within (by simp [chopReturn]; omega)
  obtain ⟨text, among, spelled⟩ := lines_of_row stands solid
  have wide : stop ≤ text.length := by
    have part := (chopReturn_sublist row).length_le
    rcases spelled with rfl | rfl
    · omega
    · exact within
  have numbers : failure.lines = Text.lines content := by rw [lines, known]
  have found : Snippet.line? failure.lines message = some text := by
    rw [Snippet.line?, numbered, if_neg (Nat.succ_ne_zero line), numbers]
    exact among
  obtain ⟨printed, rendered, underlined⟩ :=
    Snippet.render_underlines found (reaches text.length wide) (Nat.le_of_lt ordered)
  refine ⟨content, text, printed, known, among, ?_, underlined, ordered, wide⟩
  rw [Message.render, rendered]
  rfl

/-- The extent that is underlined can be read off what is printed. -/
theorem Underlines.unique {left right : Nat} (first : failure.Underlines message line start stop)
    (second : failure.Underlines message line left right) : left = start ∧ right = stop := by
  obtain ⟨content, text, printed, known, among, rendered, underlined, ordered, -⟩ := first
  obtain ⟨content', text', printed', known', among', rendered', underlined', -, -⟩ := second
  obtain rfl := Option.some.inj (known.symm.trans known')
  obtain rfl := Option.some.inj (among.symm.trans among')
  obtain rfl := List.append_cancel_left (rendered.symm.trans rendered')
  exact underlined.unique underlined' ordered

end Failure

end ViewCompiler

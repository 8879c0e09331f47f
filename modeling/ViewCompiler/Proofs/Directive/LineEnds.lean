import ViewCompiler.Proofs.Directive.Positions

/-!
# Scanning does not see how lines end

A carriage return before a line feed is chopped from its row before anything is read of it. If
one is put before every line feed, every row but the last becomes longer by one character, and
reads as it did. So a place in the document is behind one more character for each line before
it, and nothing else of a scan changes: directives, markup, messages, lines, columns, lengths.
-/

namespace ViewCompiler

open Text

namespace Text

/-- The text with a carriage return before every line feed. -/
def returned (text : Text) : Text :=
  text.flatMap fun char => if char = '\n' then ['\r', '\n'] else [char]

/-- Rows with a carriage return at the end of each but the last. -/
def returnRows : List Text → List Text
  | [] => []
  | [last] => [last]
  | row :: next :: more => (row ++ ['\r']) :: returnRows (next :: more)

/-- The rows of a text have carriage returns if its line feeds do. -/
theorem rows_returned (text : Text) : rows (returned text) = returnRows (rows text) := by
  induction text with
  | nil => rfl
  | cons first text inductionHypothesis =>
    by_cases feed : first = '\n'
    · subst feed
      obtain ⟨row, more, shape⟩ := List.exists_cons_of_ne_nil (pieces_ne_nil (· == '\n') text)
      have behind : rows text = row :: more := shape
      calc rows (returned ('\n' :: text))
        _ = ['\r'] :: rows (returned text) := rfl
        _ = ['\r'] :: returnRows (row :: more) := by rw [inductionHypothesis, behind]
        _ = returnRows ([] :: row :: more) := rfl
        _ = returnRows (rows ('\n' :: text)) := by rw [← behind]; rfl
    · have own : returned (first :: text) = first :: returned text := by
        simp [returned, feed]
      have joins (text : Text) : ∃ row more, rows text = row :: more ∧
          rows (first :: text) = (first :: row) :: more :=
        pieces_cons first text (beq_false_of_ne feed)
      obtain ⟨row, more, shape, extended⟩ := joins text
      obtain ⟨other, others, otherShape, otherExtended⟩ := joins (returned text)
      have same : other :: others = returnRows (row :: more) := by
        rw [← shape, ← otherShape]
        exact inductionHypothesis
      rw [own, extended, otherExtended]
      cases more with
      | nil =>
        obtain ⟨rfl, rfl⟩ := List.cons.inj same
        rfl
      | cons next more =>
        obtain ⟨rfl, rfl⟩ := List.cons.inj same
        rfl

/-- A carriage return that was put behind a row is chopped. -/
@[simp] theorem chopReturn_concat (row : Text) : chopReturn (row ++ ['\r']) = row := by
  induction row with
  | nil => rfl
  | cons first row inductionHypothesis =>
    cases row with
    | nil => simp [chopReturn]
    | cons second row => simpa [chopReturn] using inductionHypothesis

/-- A row without carriage returns is left alone. -/
theorem chopReturn_plain {row : Text} (plain : '\r' ∉ row) : chopReturn row = row := by
  obtain ⟨ending, whole, rfl | rfl⟩ := chopReturn_parts row
  · rw [List.append_nil] at whole
    exact whole.symm
  · exact absurd (whole ▸ List.mem_append_right _ (List.mem_singleton_self _)) plain

end Text

/-! ## Blocks at places that are moved -/

/-- A block whose opener is somewhere else. -/
def OpenBlock.moved (move : Location → Location) (block : OpenBlock) : OpenBlock :=
  { block with location := move block.location }

namespace Block

variable (move : Location → Location)

/-- A run does not look at where its block was opened. -/
theorem run_moved (block : OpenBlock) (text : Text) :
    run (block.moved move) text = (run block text).map (·.moved move) id := by
  fun_induction run block text with
  | case1 block => rw [run]; rfl
  | case2 block char text quoted bound inductionHypothesis =>
    rw [run, if_pos quoted]
    exact inductionHypothesis
  | case3 block text quoted inductionHypothesis =>
    rw [run, if_neg quoted, if_pos rfl]
    exact inductionHypothesis
  | case4 block text closing quoted opening =>
    rw [run, if_neg quoted, if_neg opening, if_pos rfl]
    exact if_pos closing
  | case5 block text going quoted opening inductionHypothesis =>
    rw [run, if_neg quoted, if_neg opening, if_pos rfl]
    exact (if_neg going).trans inductionHypothesis
  | case6 block char text quoted opening closing inductionHypothesis =>
    rw [run, if_neg quoted, if_neg opening, if_neg closing]
    exact inductionHypothesis

/-- Nor does the search for openers: the block that is open in the end is where its place is. -/
theorem afterOutside_moved (place : Nat → Location) (text : Text) :
    afterOutside (fun left => move (place left)) text =
      (afterOutside place text).map (·.moved move) := by
  fun_induction afterOutside place text with
  | case1 text absent =>
    rw [afterOutside_eq, absent]
    rfl
  | case2 text inside found block closed =>
    have own : run { location := move (place (inside.length + 1)) } inside =
        .inl (block.moved move) :=
      (run_moved move { location := place (inside.length + 1) } inside).trans (by rw [closed]; rfl)
    rw [afterOutside_eq]
    simp only [found, afterLine, own]
    rfl
  | case3 text inside found rest closed _ _ inductionHypothesis =>
    have own : run { location := move (place (inside.length + 1)) } inside = .inr rest :=
      (run_moved move { location := place (inside.length + 1) } inside).trans (by rw [closed]; rfl)
    rw [afterOutside_eq]
    simp only [found, afterLine, own]
    exact inductionHypothesis

/-- A line that is moved with its open block leaves the block that it left before, moved as well. -/
theorem afterLine_moved (place : Nat → Location) (block : Option OpenBlock) (text : Text) :
    afterLine (fun left => move (place left)) (block.map (·.moved move)) text =
      (afterLine place block text).map (·.moved move) := by
  cases block with
  | none => exact afterOutside_moved move place text
  | some block =>
    simp only [Option.map_some, afterLine, run_moved]
    cases run block text with
    | inl block => rfl
    | inr rest => exact afterOutside_moved move place rest

end Block

/-! ## Scans of rows with carriage returns -/

/-- The place behind one more character for each line before it. -/
def Location.pushed (location : Location) : Location :=
  { location with absolute := location.absolute + location.line }

/-- The error at a place behind one more character for each line before it. -/
def TemplateError.pushed (error : TemplateError) : TemplateError :=
  { error with location := error.location.pushed }

namespace Scanned

/-- The scan with its errors behind one more character for each line before them. -/
def pushed (scanned : Scanned) : Scanned :=
  { scanned with errors := scanned.errors.map TemplateError.pushed }

variable {source : Source} {line offset : Nat} {row other : Text} {rows others : List Text}

/-- A row and one that reads as it does, behind one more character for each line before them,
change a scan in the same way, if the rows behind them do. -/
theorem scanRows_alike (same : chopReturn other = chopReturn row)
    (later : ∀ block accepted,
      scanRows source (line + 1) (offset + line + other.length + 1)
          (block.map (·.moved Location.pushed)) accepted others =
        (scanRows source (line + 1) (offset + row.length + 1) block accepted rows).pushed)
    (block : Option OpenBlock) (accepted : List DirectiveKind) :
    scanRows source line (offset + line) (block.map (·.moved Location.pushed)) accepted
        (other :: others) =
      (scanRows source line offset block accepted (row :: rows)).pushed := by
  have outside (accepted : List DirectiveKind) :
      scanRows source (line + 1) (offset + line + other.length + 1) none accepted others =
        (scanRows source (line + 1) (offset + row.length + 1) none accepted rows).pushed :=
    later none accepted
  have places : (fun left : Nat => (⟨source.file, offset + line + ((chopReturn row).length - left),
      line, (chopReturn row).length - left⟩ : Location)) =
        fun left => (placeOn source line offset row left).pushed := by
    funext left
    simp only [placeOn, Location.pushed, Location.mk.injEq, true_and, and_true]
    omega
  have markup : scanRows source (line + 1) (offset + line + other.length + 1)
      (Block.afterLine (fun left => (placeOn source line offset row left).pushed)
        (block.map (·.moved Location.pushed)) (chopReturn row)) accepted others =
      (scanRows source (line + 1) (offset + row.length + 1)
        (Block.afterLine (placeOn source line offset row) block (chopReturn row)) accepted
          rows).pushed := by
    rw [Block.afterLine_moved]
    exact later _ accepted
  simp only [scanRows, same, places]
  cases block with
  | some block =>
    simp only [Option.map_some] at markup ⊢
    rw [markup]
    rfl
  | none =>
    cases Directive.read? (chopReturn row) with
    | none =>
      simp only [Option.map_none] at markup ⊢
      rw [markup]
      rfl
    | some written =>
      simp only [Option.map_none, outside]
      split
      · simp [pushed, TemplateError.pushed, Location.pushed, Nat.add_right_comm]
      · rfl

/-- Behind the last row only the open block is left. -/
theorem scanRows_nil_pushed (offset offset' : Nat) (block : Option OpenBlock)
    (accepted : List DirectiveKind) :
    scanRows source line offset' (block.map (·.moved Location.pushed)) accepted [] =
      (scanRows source line offset block accepted []).pushed := by
  cases block <;> rfl

/-- Rows with carriage returns are scanned as they are without, behind one more character for
each line before them. -/
theorem scanRows_returned (plain : ∀ row ∈ rows, '\r' ∉ row) (block : Option OpenBlock)
    (accepted : List DirectiveKind) :
    scanRows source line (offset + line) (block.map (·.moved Location.pushed)) accepted
        (returnRows rows) =
      (scanRows source line offset block accepted rows).pushed := by
  fun_induction returnRows rows generalizing line offset block accepted with
  | case1 => exact scanRows_nil_pushed _ _ block accepted
  | case2 last =>
    exact scanRows_alike rfl (fun block accepted => scanRows_nil_pushed _ _ block accepted) block
      accepted
  | case3 row next more inductionHypothesis =>
    obtain ⟨head, behind⟩ := List.forall_mem_cons.mp plain
    have same : chopReturn (row ++ ['\r']) = chopReturn row := by
      rw [chopReturn_concat, chopReturn_plain head]
    refine scanRows_alike same (fun block accepted => ?_) block accepted
    have start : offset + line + (row ++ ['\r']).length + 1 = offset + row.length + 1 + (line + 1) := by
      rw [List.length_append, List.length_singleton]
      omega
    rw [start]
    exact inductionHypothesis behind block accepted

/-- A document with carriage returns before its line feeds is scanned as it is without, behind
one more character for each line before. -/
theorem ofDocument_returned {document : SourceDocument} (plain : '\r' ∉ document.content)
    (file : Option Text) (inImport : Bool) :
    ofDocument { document with content := returned document.content } file inImport =
      (ofDocument document file inImport).pushed := by
  have rowsPlain : ∀ row ∈ Text.rows document.content, '\r' ∉ row :=
    fun row member inside => plain ((mem_pieces member).1.subset inside)
  rw [ofDocument, rows_returned]
  exact scanRows_returned rowsPlain none []

end Scanned

end ViewCompiler

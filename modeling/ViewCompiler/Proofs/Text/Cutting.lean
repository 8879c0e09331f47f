import ViewCompiler.Text.Blank

/-!
# Cutting texts and putting them together again

Each operation that cuts a text is pinned down by what the parts are when they are put
together again: a lead or a tail by the rest of the text, the last cut by the two sides
of it, rows by the line feeds between them. Lines that were written with a line feed
after each come back as they were, up to a carriage return that one may end in.

Trimming is pinned down by its effect on a text that begins and ends in solid
characters, and on blanks that stand around another text.
-/

namespace ViewCompiler.Text

variable {lead tail text rest front before after middle : Text} {cut : Char → Bool}

/-- The lead of a text that was put in front of the rest is found. -/
@[simp] theorem afterLead?_append (lead rest : Text) :
    afterLead? lead (lead ++ rest) = some rest := by
  induction lead with
  | nil => rfl
  | cons first lead inductionHypothesis => simp [afterLead?, inductionHypothesis]

/-- Finding a lead means that the text is the lead and the rest. -/
theorem afterLead?_eq_some_iff : afterLead? lead text = some rest ↔ text = lead ++ rest := by
  constructor
  · intro found
    induction lead generalizing text with
    | nil => simpa [afterLead?] using found
    | cons expected lead inductionHypothesis =>
      cases text with
      | nil => simp [afterLead?] at found
      | cons actual text =>
        by_cases same : expected = actual
        · subst same
          have follows : text = lead ++ rest :=
            inductionHypothesis (by simpa [afterLead?] using found)
          simp [follows]
        · simp [afterLead?, same] at found
  · rintro rfl
    exact afterLead?_append lead rest

/-- Finding a tail means that the text is the front and the tail. -/
theorem beforeTail?_eq_some_iff : beforeTail? tail text = some front ↔ text = front ++ tail := by
  simp only [beforeTail?, Option.map_eq_some_iff, afterLead?_eq_some_iff]
  constructor
  · rintro ⟨reversed, cut, rfl⟩
    have turned := congrArg List.reverse cut
    simpa using turned
  · rintro rfl
    exact ⟨front.reverse, by simp, by simp⟩

/-- The tail of a text that was put behind the front is found. -/
@[simp] theorem beforeTail?_append (front tail : Text) :
    beforeTail? tail (front ++ tail) = some front :=
  beforeTail?_eq_some_iff.mpr rfl

/-- The test of a beginning is that for a prefix. -/
theorem beginsWith_iff : beginsWith lead text = true ↔ lead <+: text := by
  rw [beginsWith, Option.isSome_iff_exists]
  exact exists_congr fun rest => afterLead?_eq_some_iff.trans eq_comm

/-- The test of an end is that for a suffix. -/
theorem endsWith_iff : endsWith tail text = true ↔ tail <:+ text := by
  rw [endsWith, Option.isSome_iff_exists]
  exact exists_congr fun front => beforeTail?_eq_some_iff.trans eq_comm

/-- There is no last cut exactly if no character is selected. -/
theorem cutLast?_eq_none_iff : cutLast? cut text = none ↔ ∀ char ∈ text, cut char = false := by
  induction text with
  | nil => simp [cutLast?]
  | cons first text inductionHypothesis =>
    cases behind : cutLast? cut text with
    | none =>
      have free := inductionHypothesis.mp behind
      cases head : cut first <;> simp [cutLast?, behind, head]
      exact free
    | some sides =>
      have selected : ¬ ∀ char ∈ text, cut char = false := by
        intro free
        rw [inductionHypothesis.mpr free] at behind
        cases behind
      simp only [cutLast?, behind, List.forall_mem_cons, false_iff, reduceCtorEq]
      intro both
      exact selected both.2

/-- A selected character that no other one follows is the last cut. -/
theorem cutLast?_append (mark : Char) (selected : cut mark = true)
    (free : ∀ char ∈ after, cut char = false) :
    cutLast? cut (before ++ mark :: after) = some (before, after) := by
  induction before with
  | nil => simp [cutLast?, cutLast?_eq_none_iff.mpr free, selected]
  | cons first before inductionHypothesis => simp [cutLast?, inductionHypothesis]

/-- The last cut is at a character that is selected and that no other one follows. -/
theorem cutLast?_eq_some_iff : cutLast? cut text = some (before, after) ↔
    ∃ mark, cut mark = true ∧ text = before ++ mark :: after ∧ ∀ char ∈ after, cut char = false := by
  constructor
  · intro found
    induction text generalizing before after with
    | nil => simp [cutLast?] at found
    | cons first text inductionHypothesis =>
      simp only [cutLast?] at found
      cases inside : cutLast? cut text with
      | some sides =>
        obtain ⟨inner, innerAfter⟩ := sides
        simp only [inside, Option.some.injEq, Prod.mk.injEq] at found
        obtain ⟨rfl, rfl⟩ := found
        obtain ⟨mark, selected, shape, free⟩ := inductionHypothesis inside
        exact ⟨mark, selected, by simp [shape], free⟩
      | none =>
        simp only [inside] at found
        split at found
        · rename_i selected
          simp only [Option.some.injEq, Prod.mk.injEq] at found
          obtain ⟨rfl, rfl⟩ := found
          exact ⟨first, selected, rfl, cutLast?_eq_none_iff.mp inside⟩
        · simp at found
  · rintro ⟨mark, selected, rfl, free⟩
    exact cutLast?_append mark selected free

/-- The last cut has the text on its sides, and nothing that is selected follows it. -/
theorem cutLast?_sides (found : cutLast? cut text = some (before, after)) :
    (∃ mark, text = before ++ mark :: after) ∧ ∀ char ∈ after, cut char = false := by
  obtain ⟨mark, -, shape, free⟩ := cutLast?_eq_some_iff.mp found
  exact ⟨⟨mark, shape⟩, free⟩

/-- The search for a mark passes over a text that has none of its first character. -/
theorem cutFirst?_append (first : Char) (mark before text : Text) (absent : first ∉ before) :
    cutFirst? (first :: mark) (before ++ text) =
      (cutFirst? (first :: mark) text).map fun (passed, after) => (before ++ passed, after) := by
  induction before with
  | nil => simp
  | cons other before inductionHypothesis =>
    have differs : first ≠ other := fun same => absent (by simp [same])
    have behind := inductionHypothesis fun member => absent (by simp [member])
    simp only [List.cons_append, cutFirst?, afterLead?, differs, ↓reduceIte, behind, Option.map_map]
    rfl

/-- What stands in joined texts stands in one of them or between them. -/
theorem mem_joined {mark : Text} {parts : List Text} {char : Char}
    (member : char ∈ joined mark parts) : char ∈ mark ∨ ∃ part ∈ parts, char ∈ part := by
  fun_induction joined mark parts with
  | case1 => simp at member
  | case2 only => exact .inr ⟨only, by simp, member⟩
  | case3 first more _ inductionHypothesis =>
    rcases List.mem_append.mp member with front | behind
    · rcases List.mem_append.mp front with inside | between
      · exact .inr ⟨first, by simp, inside⟩
      · exact .inl between
    · apply (inductionHypothesis behind).imp_right
      rintro ⟨part, among, inside⟩
      exact ⟨part, by simp [among], inside⟩

/-! ## Rows and lines -/

/-- There is always a first piece. -/
theorem pieces_ne_nil (cut : Char → Bool) (text : Text) : pieces cut text ≠ [] := by
  cases text with
  | nil => simp [pieces]
  | cons first text =>
    simp only [pieces]
    split
    · simp
    · split <;> simp

/-- A character that is not selected goes to the front of the first piece. -/
theorem pieces_cons (first : Char) (text : Text) (kept : cut first = false) :
    ∃ piece more, pieces cut text = piece :: more ∧
      pieces cut (first :: text) = (first :: piece) :: more := by
  obtain ⟨piece, more, shape⟩ := List.exists_cons_of_ne_nil (pieces_ne_nil cut text)
  exact ⟨piece, more, shape, by simp [pieces, kept, shape]⟩

/-- Every piece lies in the text and holds no selected character. -/
theorem mem_pieces {piece : Text} (member : piece ∈ pieces cut text) :
    piece.Sublist text ∧ ∀ char ∈ piece, cut char = false := by
  induction text generalizing piece with
  | nil =>
    obtain rfl : piece = [] := by simpa [pieces] using member
    simp
  | cons first text inductionHypothesis =>
    cases chosen : cut first with
    | true =>
      have among : piece = [] ∨ piece ∈ pieces cut text := by simpa [pieces, chosen] using member
      cases among with
      | inl empty => simp [empty]
      | inr later =>
        obtain ⟨inside, free⟩ := inductionHypothesis later
        exact ⟨inside.cons first, free⟩
    | false =>
      obtain ⟨head, more, shape, extended⟩ := pieces_cons first text chosen
      rw [extended] at member
      rcases List.mem_cons.mp member with rfl | later
      · obtain ⟨inside, free⟩ := @inductionHypothesis head (by simp [shape])
        exact ⟨inside.cons_cons first, by simpa [chosen] using free⟩
      · obtain ⟨inside, free⟩ := @inductionHypothesis piece (by simp [shape, later])
        exact ⟨inside.cons first, free⟩

/-- There is at most one piece more than there are characters. -/
theorem pieces_length (cut : Char → Bool) (text : Text) :
    (pieces cut text).length ≤ text.length + 1 := by
  induction text with
  | nil => simp [pieces]
  | cons first text inductionHypothesis =>
    cases chosen : cut first with
    | true => simpa [pieces, chosen] using inductionHypothesis
    | false =>
      obtain ⟨head, more, shape, extended⟩ := pieces_cons first text chosen
      simp only [shape, List.length_cons] at inductionHypothesis
      simp only [extended, List.length_cons]
      omega

/-- A text without selected characters is one piece. -/
theorem pieces_of_free {piece : Text} (free : ∀ char ∈ piece, cut char = false) :
    pieces cut piece = [piece] := by
  induction piece with
  | nil => rfl
  | cons first piece inductionHypothesis =>
    have head : cut first = false := free first (by simp)
    have behind := inductionHypothesis fun char member => free char (by simp [member])
    simp [pieces, head, behind]

/-- A selected character parts the pieces before it from those behind it. -/
theorem pieces_mark (front rest : Text) {mark : Char} (selected : cut mark = true) :
    pieces cut (front ++ mark :: rest) = pieces cut front ++ pieces cut rest := by
  induction front with
  | nil => simp [pieces, selected]
  | cons first front inductionHypothesis =>
    cases chosen : cut first with
    | true => simp [pieces, chosen, inductionHypothesis]
    | false =>
      obtain ⟨piece, more, shape, extended⟩ := pieces_cons first front chosen
      rw [shape, List.cons_append] at inductionHypothesis
      rw [extended, List.cons_append, pieces, inductionHypothesis]
      simp [chosen]

/-- A text without selected characters is the first piece when a selected character
follows it. -/
theorem pieces_append (piece rest : Text) (mark : Char) (free : ∀ char ∈ piece, cut char = false)
    (selected : cut mark = true) :
    pieces cut (piece ++ mark :: rest) = piece :: pieces cut rest := by
  rw [pieces_mark piece rest selected, pieces_of_free free]
  rfl

/-- Joined parts are cut apart again, if they hold none of the selected characters. -/
theorem pieces_joined {mark : Char} {parts : List Text} (selected : cut mark = true)
    (nonempty : parts ≠ []) (whole : ∀ part ∈ parts, ∀ char ∈ part, cut char = false) :
    pieces cut (joined [mark] parts) = parts := by
  fun_induction joined [mark] parts with
  | case1 => exact absurd rfl nonempty
  | case2 only => exact pieces_of_free (whole only (by simp))
  | case3 first more several inductionHypothesis =>
    rw [List.append_assoc, List.cons_append, List.nil_append,
      pieces_append first _ mark (whole first (by simp)) selected]
    rw [inductionHypothesis several fun part member => whole part (by simp [member])]

/-- No row holds a line feed. -/
theorem newline_not_mem_row {row : Text} (member : row ∈ rows text) : '\n' ∉ row := by
  intro inside
  have free := (mem_pieces member).2 '\n' inside
  simp at free

/-- Rows with a line feed after each come back, with an empty row after the last feed. -/
theorem rows_feeds (written : List Text) (single : ∀ row ∈ written, '\n' ∉ row) :
    rows (written.flatMap (· ++ ['\n'])) = written ++ [[]] := by
  induction written with
  | nil => rfl
  | cons row written inductionHypothesis =>
    have head : ∀ char ∈ row, (char == '\n') = false := by
      intro char member
      have differs : char ≠ '\n' := fun same => single row (by simp) (same ▸ member)
      simpa using differs
    have behind := inductionHypothesis fun other member => single other (by simp [member])
    simp only [List.flatMap_cons, List.append_assoc, List.cons_append, List.nil_append]
    rw [rows, pieces_append row _ '\n' head rfl]
    exact congrArg (row :: ·) behind

/-- Lines with a line feed after each come back without the carriage returns they ended in. -/
theorem lines_feeds (written : List Text) (single : ∀ row ∈ written, '\n' ∉ row) :
    lines (written.flatMap (· ++ ['\n'])) = written.map chopReturn := by
  rw [lines, rows_feeds written single]
  clear single
  induction written with
  | nil => rfl
  | cons row written inductionHypothesis =>
    cases written with
    | nil => rfl
    | cons next written =>
      simp only [List.cons_append, lines.settle, List.map_cons] at inductionHypothesis ⊢
      rw [inductionHypothesis]

/-- A row that is not empty is a line, with or without the carriage return it may end in. -/
theorem lines_of_row {content row : Text} {line : Nat} (stands : (rows content)[line]? = some row)
    (solid : row ≠ []) :
    ∃ shown, (lines content)[line]? = some shown ∧ (shown = row ∨ shown = chopReturn row) := by
  unfold lines
  generalize rows content = written at stands
  fun_induction lines.settle written generalizing line with
  | case1 => cases stands
  | case2 last empty =>
    obtain ⟨rfl, rfl⟩ : line = 0 ∧ last = row := by
      cases line with
      | zero => exact ⟨rfl, Option.some.inj stands⟩
      | succ line => cases stands
    exact absurd (List.isEmpty_iff.mp empty) solid
  | case3 last nonempty => exact ⟨row, stands, .inl rfl⟩
  | case4 first more several inductionHypothesis =>
    cases line with
    | zero =>
      obtain rfl := Option.some.inj stands
      exact ⟨chopReturn first, rfl, .inr rfl⟩
    | succ line => exact inductionHypothesis stands

end ViewCompiler.Text

import ViewCompiler.Directive.Scan
import ViewCompiler.Proofs.Text.Cutting
import ViewCompiler.Proofs.Text.Trimming

/-!
# What the rows of a document add to its scan

A scan takes one row after the other, and each row adds one thing: an error or a
directive if it reads as one, otherwise a line of markup. From this follows what holds
of everything that a scan finds: values and markup are parts of one row, places lie in
the document, and every error names the file that it was scanned for.
-/

namespace ViewCompiler

open Text

/-- What is left of a value without its quotes is part of it. -/
theorem unquote_sublist (value : Text) : (unquote value).Sublist value := by
  unfold unquote
  split
  · rename_i inner
    cases found : beforeTail? ['"'] inner with
    | none => exact List.Sublist.refl _
    | some front =>
      have shape : inner = front ++ ['"'] := beforeTail?_eq_some_iff.mp found
      rw [shape]
      exact (List.sublist_append_left front ['"']).cons '"'
  · exact List.Sublist.refl _

/-- A directive stands behind blanks: its `@`, its keyword, and the rest of the line. -/
theorem Directive.read?_shape {line : Text} {written : Directive.Written}
    (read : Directive.read? line = some written) :
    ∃ indent, line = indent ++ '@' :: (written.kind.keyword ++ written.rest) ∧
      indent.length = written.column ∧ ∀ char ∈ indent, isBlank char = true := by
  unfold Directive.read? at read
  split at read
  · rename_i body shape
    simp only [Option.bind_eq_bind, Option.bind_eq_some_iff] at read
    obtain ⟨⟨kind, rest⟩, found, settled⟩ := read
    split at settled
    · simp at settled
    · obtain rfl := Option.some.inj settled
      obtain ⟨candidate, _, tried⟩ := List.exists_of_findSome?_eq_some found
      split at tried
      · rename_i behind lead
        split at tried
        · simp at tried
        · obtain ⟨rfl, rfl⟩ := Prod.mk.inj (Option.some.inj tried)
          have cut : body = candidate.keyword ++ behind := afterLead?_eq_some_iff.mp lead
          refine ⟨line.takeWhile isBlank, ?_, rfl, ?_⟩
          · rw [← cut, ← shape, List.takeWhile_append_dropWhile]
          · have blank := List.all_takeWhile (p := isBlank) (l := line)
            rwa [List.all_eq_true] at blank
      · simp at tried
  · simp at read

/-- A directive begins on its line, and what follows its keyword is part of the line. -/
theorem Directive.read?_parts {line : Text} {written : Directive.Written}
    (read : Directive.read? line = some written) :
    written.column ≤ line.length ∧ written.rest.Sublist line := by
  obtain ⟨indent, rfl, column, -⟩ := read?_shape read
  refine ⟨?_, ?_⟩
  · rw [← column, List.length_append]
    exact Nat.le_add_right _ _
  · have part := List.sublist_append_right written.kind.keyword written.rest
    exact (part.cons '@').trans (List.sublist_append_right _ _)

/-- What is accepted is no page in an import, and no second directive of a kind that may be
accepted only once. -/
theorem Directive.fault?_none {accepted : List DirectiveKind} {inImport : Bool}
    {kind : DirectiveKind} {value : Text} (sound : fault? accepted inImport kind value = none) :
    (kind.isSingle = true → kind ∉ accepted) ∧ (inImport = true → kind ≠ .page) := by
  unfold fault? at sound
  grind

namespace Block

/-- A run that does not end a block leaves it where it was opened. -/
theorem run_location {block after : OpenBlock} {text : Text} (going : run block text = .inl after) :
    after.location = block.location := by
  fun_induction run block text with
  | case1 block =>
    simp only [Sum.inl.injEq] at going
    rw [going]
  | case2 _ _ _ _ _ inductionHypothesis => exact inductionHypothesis going
  | case3 _ _ _ inductionHypothesis => exact inductionHypothesis going
  | case4 => simp at going
  | case5 _ _ _ _ _ inductionHypothesis => exact inductionHypothesis going
  | case6 _ _ _ _ _ _ inductionHypothesis => exact inductionHypothesis going

/-- What follows a literal is the end of what its quote stands before. -/
theorem afterLiteral_suffix (quote : Char) (text : Text) : afterLiteral quote text <:+ text := by
  fun_induction afterLiteral quote text with
  | case1 => exact List.suffix_rfl
  | case2 => exact List.nil_suffix
  | case3 _ rest inductionHypothesis =>
    exact (inductionHypothesis.trans (List.suffix_cons _ _)).trans (List.suffix_cons _ _)
  | case4 char rest => exact List.suffix_cons _ _
  | case5 _ _ _ _ _ inductionHypothesis => exact inductionHypothesis.trans (List.suffix_cons _ _)

/-- What a run leaves behind a block is the end of the text. -/
theorem run_suffix {block : OpenBlock} {text rest : Text} (closed : run block text = .inr rest) :
    rest <:+ text := by
  fun_induction run block text with
  | case1 => simp at closed
  | case2 block char text _ _ inductionHypothesis =>
    exact ((inductionHypothesis closed).trans (afterLiteral_suffix char text)).trans
      (List.suffix_cons _ _)
  | case3 _ _ _ inductionHypothesis =>
    exact (inductionHypothesis closed).trans (List.suffix_cons _ _)
  | case4 _ text =>
    simp only [Sum.inr.injEq] at closed
    exact closed ▸ List.suffix_cons _ _
  | case5 _ _ _ _ _ inductionHypothesis =>
    exact (inductionHypothesis closed).trans (List.suffix_cons _ _)
  | case6 _ _ _ _ _ _ inductionHypothesis =>
    exact (inductionHypothesis closed).trans (List.suffix_cons _ _)

/-- An opener is an `@` in the text, and what follows it opens a block. -/
theorem opener?_found {joined : Bool} {text inside : Text}
    (found : opener? joined text = some inside) :
    opens inside = true ∧ ('@' :: inside) <:+ text := by
  induction text generalizing joined with
  | nil => simp [opener?] at found
  | cons char text inductionHypothesis =>
    simp only [opener?] at found
    split at found
    · rename_i marked
      obtain rfl := Option.some.inj found
      exact ⟨marked.2.2, marked.1 ▸ List.suffix_rfl⟩
    · obtain ⟨opening, part⟩ := inductionHypothesis found
      exact ⟨opening, part.trans (List.suffix_cons _ _)⟩

/-- What is open behind a text is what is open behind its first block. -/
theorem afterOutside_eq (place : Nat → Location) (text : Text) :
    afterOutside place text =
      match opener? false text with
      | none => none
      | some inside => afterLine place (some { location := place (inside.length + 1) }) inside := by
  rw [afterOutside]
  split
  · rename_i absent
    simp only [absent]
  · rename_i inside found
    split
    · rename_i block closed
      simp only [found, afterLine, closed]
    · rename_i rest closed
      simp only [found, afterLine, closed]

/-- A block that is open behind a text was opened in it. -/
theorem afterOutside_opener {place : Nat → Location} {text : Text} {after : OpenBlock}
    (going : afterOutside place text = some after) :
    ∃ inside, opens inside = true ∧ ('@' :: inside) <:+ text ∧
      after.location = place (inside.length + 1) := by
  fun_induction afterOutside place text with
  | case1 => simp at going
  | case2 text inside found block closed =>
    simp only [Option.some.injEq] at going
    subst going
    obtain ⟨opening, part⟩ := opener?_found found
    exact ⟨inside, opening, part, run_location closed⟩
  | case3 text behind found rest closed _ _ inductionHypothesis =>
    obtain ⟨inside, opening, part, place⟩ := inductionHypothesis going
    have left : rest <:+ text :=
      (run_suffix closed).trans ((List.suffix_cons _ _).trans (opener?_found found).2)
    exact ⟨inside, opening, part.trans left, place⟩

/-- A block that is open behind a line was open before it or was opened on it. -/
theorem afterLine_opener {place : Nat → Location} {block : Option OpenBlock} {line : Text}
    {after : OpenBlock} (going : afterLine place block line = some after) :
    (∃ before, block = some before ∧ after.location = before.location) ∨
      ∃ inside, opens inside = true ∧ ('@' :: inside) <:+ line ∧
        after.location = place (inside.length + 1) := by
  cases block with
  | none => exact .inr (afterOutside_opener going)
  | some before =>
    simp only [afterLine] at going
    split at going
    · rename_i kept closed
      simp only [Option.some.injEq] at going
      subst going
      exact .inl ⟨before, rfl, run_location closed⟩
    · rename_i rest closed
      obtain ⟨inside, opening, part, place⟩ := afterOutside_opener going
      exact .inr ⟨inside, opening, part.trans (run_suffix closed), place⟩

end Block

namespace Scanned

variable {source : Source} {line offset : Nat} {block : Option OpenBlock}
  {accepted : List DirectiveKind} {rows : List Text} {row : Text}

/-- A directive as it is accepted on a row. -/
def acceptedOn (line : Nat) (row : Text) (written : Directive.Written) : Directive :=
  ⟨written.kind, unquote (trim written.rest), line, written.column,
    (trimEnd (chopReturn row)).length⟩

/-- A directive as it is refused on a row. -/
def refusedOn (source : Source) (line offset : Nat) (row : Text) (written : Directive.Written)
    (fault : DirectiveFault) : TemplateError :=
  ⟨fault.message, ⟨source.file, offset + written.column, line, written.column⟩,
    (trimEnd (chopReturn row)).length - written.column⟩

/-- A place on a row, told by how much of the row is left from there on. -/
def placeOn (source : Source) (line offset : Nat) (row : Text) (left : Nat) : Location :=
  ⟨source.file, offset + ((chopReturn row).length - left), line, (chopReturn row).length - left⟩

/-- A row that reads as a directive while no block is open adds an error or a directive,
as the kinds accepted so far decide, and every other row adds a line of markup. -/
theorem scanRows_row (source : Source) (line offset : Nat) (block : Option OpenBlock)
    (accepted : List DirectiveKind) (row : Text) (rows : List Text) :
    let later := fun block accepted =>
      scanRows source (line + 1) (offset + row.length + 1) block accepted rows
    let scanned := scanRows source line offset block accepted (row :: rows)
    (∃ written, block = none ∧ Directive.read? (chopReturn row) = some written ∧
      ((∃ fault, Directive.fault? accepted source.inImport written.kind (trim written.rest) =
            some fault ∧
          scanned = { later none accepted with
            errors := refusedOn source line offset row written fault ::
              (later none accepted).errors }) ∨
        Directive.fault? accepted source.inImport written.kind (trim written.rest) = none ∧
          scanned = { later none (written.kind :: accepted) with
            directives := acceptedOn line row written ::
              (later none (written.kind :: accepted)).directives })) ∨
    ∃ rest, rest = later (Block.afterLine (placeOn source line offset row) block (chopReturn row))
        accepted ∧
      scanned = { rest with markup := (line, chopReturn row) :: rest.markup } := by
  simp only [scanRows]
  split
  · rename_i written read
    split
    · rename_i fault refused
      exact .inl ⟨written, rfl, read, .inl ⟨fault, refused, rfl⟩⟩
    · rename_i sound
      exact .inl ⟨written, rfl, read, .inr ⟨sound, rfl⟩⟩
  · exact .inr ⟨_, rfl, rfl⟩

/-- The row has this number if the first one has the number `line`. -/
def Numbered (rows : List Text) (line number : Nat) (row : Text) : Prop :=
  line ≤ number ∧ rows[number - line]? = some row

/-- A row is numbered by its index, counted from the line of the first one. -/
theorem Numbered.at {index : Nat} (found : rows[index]? = some row) :
    Numbered rows line (line + index) row := by
  refine ⟨Nat.le_add_right line index, ?_⟩
  rwa [Nat.add_sub_cancel_left]

/-- How many characters stand before a row, if a line feed follows every earlier one. -/
def startOf : List Text → (index : Nat) → Nat
  | [], _ => 0
  | _ :: _, 0 => 0
  | row :: rows, index + 1 => row.length + 1 + startOf rows index

/-- Where an accepted directive comes from: one of the rows reads as it, and it is accepted
beside kinds among which are those that were accepted before the rows. -/
theorem directive_origin {directive : Directive}
    (member : directive ∈ (scanRows source line offset block accepted rows).directives) :
    ∃ index row written known, rows[index]? = some row ∧
      Directive.read? (chopReturn row) = some written ∧ (∀ kind ∈ accepted, kind ∈ known) ∧
      Directive.fault? known source.inImport written.kind (trim written.rest) = none ∧
      directive = acceptedOn (line + index) row written := by
  induction rows generalizing line offset block accepted with
  | nil =>
    cases block <;> simp [scanRows] at member
  | cons first rows inductionHypothesis =>
    have later {block' : Option OpenBlock} {accepted' : List DirectiveKind}
        (more : ∀ kind ∈ accepted, kind ∈ accepted')
        (member : directive ∈ (scanRows source (line + 1) (offset + first.length + 1) block'
          accepted' rows).directives) :
        ∃ index row written known, (first :: rows)[index]? = some row ∧
          Directive.read? (chopReturn row) = some written ∧ (∀ kind ∈ accepted, kind ∈ known) ∧
          Directive.fault? known source.inImport written.kind (trim written.rest) = none ∧
          directive = acceptedOn (line + index) row written := by
      obtain ⟨index, row, written, known, found, read, among, sound, shape⟩ :=
        inductionHypothesis member
      refine ⟨index + 1, row, written, known, found, read, ?_, sound, ?_⟩
      · exact fun kind member => among kind (more kind member)
      · rw [shape, Nat.add_right_comm, Nat.add_assoc]
    rcases scanRows_row source line offset block accepted first rows with
      ⟨written, -, read, ⟨fault, -, shape⟩ | ⟨sound, shape⟩⟩ | ⟨rest, rfl, shape⟩
    · exact later (fun _ => id) (by simpa [shape] using member)
    · simp only [shape, List.mem_cons] at member
      rcases member with rfl | member
      · exact ⟨0, first, written, accepted, rfl, read, fun _ => id, sound, rfl⟩
      · exact later (fun _ => List.mem_cons_of_mem _) member
    · exact later (fun _ => id) (by simpa [shape] using member)

/-- An error arises on a row: a directive is refused there, or an `@` opens a block that is
never closed. -/
inductive ArisesOn (source : Source) (line offset : Nat) (row : Text) : TemplateError → Prop
  | directive (written : Directive.Written) (known : List DirectiveKind) (fault : DirectiveFault)
      (read : Directive.read? (chopReturn row) = some written)
      (refused : Directive.fault? known source.inImport written.kind (trim written.rest) =
        some fault) :
      ArisesOn source line offset row (refusedOn source line offset row written fault)
  | opener (before inside : Text) (shape : chopReturn row = before ++ '@' :: inside)
      (opens : Block.opens inside = true) :
      ArisesOn source line offset row
        ⟨DirectiveFault.openBlock.message,
          ⟨source.file, offset + before.length, line, before.length⟩, 1⟩

/-- Where an error comes from: it is the block that was open before the rows, or it arises on
one of them. -/
theorem error_origin {error : TemplateError}
    (member : error ∈ (scanRows source line offset block accepted rows).errors) :
    (∃ opened, block = some opened ∧
      error = ⟨DirectiveFault.openBlock.message, opened.location, 1⟩) ∨
    ∃ index row, rows[index]? = some row ∧
      ArisesOn source (line + index) (offset + startOf rows index) row error := by
  induction rows generalizing line offset block accepted with
  | nil =>
    cases block with
    | none => simp [scanRows] at member
    | some opened => exact .inl ⟨opened, rfl, by simpa [scanRows] using member⟩
  | cons first rows inductionHypothesis =>
    have later (further : ∃ index row, rows[index]? = some row ∧ ArisesOn source
        (line + 1 + index) (offset + first.length + 1 + startOf rows index) row error) :
        ∃ index row, (first :: rows)[index]? = some row ∧
          ArisesOn source (line + index) (offset + startOf (first :: rows) index) row error := by
      obtain ⟨index, row, found, arises⟩ := further
      refine ⟨index + 1, row, found, ?_⟩
      have number : line + (index + 1) = line + 1 + index := by omega
      have start : offset + startOf (first :: rows) (index + 1) =
          offset + first.length + 1 + startOf rows index := by
        rw [startOf]
        omega
      rwa [number, start]
    rcases scanRows_row source line offset block accepted first rows with
      ⟨written, rfl, read, ⟨fault, refused, shape⟩ | ⟨-, shape⟩⟩ | ⟨rest, rfl, shape⟩
    · simp only [shape, List.mem_cons] at member
      rcases member with rfl | member
      · exact .inr ⟨0, first, rfl, .directive written accepted fault read refused⟩
      · exact .inr (later ((inductionHypothesis member).resolve_left nofun))
    · have member : error ∈ (scanRows source (line + 1) (offset + first.length + 1) none
          (written.kind :: accepted) rows).errors := by simpa [shape] using member
      exact .inr (later ((inductionHypothesis member).resolve_left nofun))
    · rcases inductionHypothesis (by simpa [shape] using member) with
        ⟨opened, going, same⟩ | further
      · rcases Block.afterLine_opener going with
          ⟨before, open_, place⟩ | ⟨inside, opens, ⟨before, part⟩, place⟩
        · exact .inl ⟨before, open_, place ▸ same⟩
        · have character : (chopReturn first).length - (inside.length + 1) = before.length := by
            simp [← part]
          rw [same, place]
          refine .inr ⟨0, first, rfl, ?_⟩
          simp only [placeOn, character]
          exact .opener before inside part.symm opens
      · exact .inr (later further)

/-- A row holds the directive, as accepted. -/
def Declares (row : Text) (directive : Directive) : Prop :=
  ∃ written, Directive.read? (chopReturn row) = some written ∧
    directive = acceptedOn directive.line row written

/-- A directive that is accepted is on the row of its line. -/
theorem directive_row {directive : Directive}
    (member : directive ∈ (scanRows source line offset block accepted rows).directives) :
    ∃ row, Numbered rows line directive.line row ∧ Declares row directive := by
  obtain ⟨index, row, written, -, found, read, -, -, rfl⟩ := directive_origin member
  exact ⟨row, .at found, written, read, rfl⟩

/-- The value of a directive is part of a row, and its place lies on the row. -/
theorem directive_parts {directive : Directive}
    (member : directive ∈ (scanRows source line offset block accepted rows).directives) :
    directive.line < line + rows.length ∧
      ∃ row ∈ rows, directive.value.Sublist row ∧ directive.column ≤ row.length ∧
        directive.endColumn ≤ row.length := by
  obtain ⟨row, ⟨low, found⟩, written, read, shape⟩ := directive_row member
  obtain ⟨high, -⟩ := List.getElem?_eq_some_iff.mp found
  obtain ⟨column, rest⟩ := Directive.read?_parts read
  have chopped := chopReturn_sublist row
  refine ⟨by omega, row, List.mem_of_getElem? found, ?_⟩
  rw [shape]
  refine ⟨?_, Nat.le_trans column chopped.length_le, ?_⟩
  · exact (unquote_sublist _).trans ((trim_sublist _).trans (rest.trans chopped))
  · exact ((trimEnd_sublist _).trans chopped).length_le

/-- A line of markup is part of a row. -/
theorem markup_parts {entry : Nat × Text}
    (member : entry ∈ (scanRows source line offset block accepted rows).markup) :
    ∃ row ∈ rows, entry.2.Sublist row := by
  induction rows generalizing line offset block accepted with
  | nil =>
    cases block <;> simp [scanRows] at member
  | cons row rows inductionHypothesis =>
    have later (further : ∃ other ∈ rows, entry.2.Sublist other) :
        ∃ other ∈ row :: rows, entry.2.Sublist other := by
      obtain ⟨other, among, part⟩ := further
      exact ⟨other, List.mem_cons_of_mem row among, part⟩
    rcases scanRows_row source line offset block accepted row rows with
      ⟨written, -, -, ⟨fault, -, shape⟩ | ⟨-, shape⟩⟩ | ⟨rest, rfl, shape⟩
    · exact later (inductionHypothesis (by simpa [shape] using member))
    · exact later (inductionHypothesis (by simpa [shape] using member))
    · simp only [shape, List.mem_cons] at member
      rcases member with rfl | member
      · exact ⟨row, by simp, chopReturn_sublist row⟩
      · exact later (inductionHypothesis member)

/-- The markup of a scan without errors is made of the rows on which no directive is
accepted, in their order and each with its number. -/
theorem markup_rows (silent : (scanRows source line offset block accepted rows).errors = []) :
    (scanRows source line offset block accepted rows).markup =
      ((rows.zipIdx line).filter fun entry =>
        entry.2 ∉ (scanRows source line offset block accepted rows).directives.map (·.line)).map
          fun entry => (entry.2, chopReturn entry.1) := by
  induction rows generalizing line offset block accepted with
  | nil =>
    cases block <;> simp [scanRows]
  | cons row rows inductionHypothesis =>
    rcases scanRows_row source line offset block accepted row rows with
      ⟨written, -, -, ⟨fault, -, shape⟩ | ⟨-, shape⟩⟩ | ⟨rest, rfl, shape⟩
    · simp [shape] at silent
    · rw [shape] at silent ⊢
      have behind := inductionHypothesis silent
      simp only at behind ⊢
      rw [behind, List.zipIdx_cons, List.filter_cons_of_neg (by simp [acceptedOn])]
      congr 1
      apply List.filter_congr
      intro entry member
      -- The rows behind it have other numbers than the row of the directive.
      have other : entry.2 ≠ line :=
        Nat.ne_of_gt (List.le_snd_of_mem_zipIdx member)
      simp [acceptedOn, other]
    · rw [shape] at silent ⊢
      have behind := inductionHypothesis silent
      simp only at behind ⊢
      rw [behind, List.zipIdx_cons, List.filter_cons_of_pos, List.map_cons]
      rw [decide_eq_true_eq]
      intro member
      obtain ⟨directive, among, same⟩ := List.mem_map.mp member
      obtain ⟨_, ⟨low, -⟩, -⟩ := directive_row among
      omega

/-- Every error names the file that the document was scanned for. -/
theorem error_file {error : TemplateError}
    (located : ∀ opened, block = some opened → opened.location.file = source.file)
    (member : error ∈ (scanRows source line offset block accepted rows).errors) :
    error.location.file = source.file := by
  rcases error_origin member with ⟨opened, going, rfl⟩ | ⟨index, row, -, arises⟩
  · exact located opened going
  · cases arises <;> rfl

/-- Every error of a scan is in the file that the scan was made for. -/
theorem ofDocument_error_file {document : SourceDocument} {file : Option Text} {inImport : Bool}
    {error : TemplateError} (member : error ∈ (ofDocument document file inImport).errors) :
    error.location.file = file := by
  have unopened (opened : OpenBlock) (same : none = some opened) : opened.location.file = file := by
    cases same
  exact error_file unopened member

/-- A kind that is accepted only once was not accepted before the rows of a scan that
accepts it, and an import accepts no page. -/
theorem directive_kind {directive : Directive}
    (member : directive ∈ (scanRows source line offset block accepted rows).directives) :
    (directive.kind.isSingle = true → directive.kind ∉ accepted) ∧
      (source.inImport = true → directive.kind ≠ .page) := by
  obtain ⟨index, row, written, known, -, -, among, sound, rfl⟩ := directive_origin member
  obtain ⟨unseen, noPage⟩ := Directive.fault?_none sound
  exact ⟨fun single seen => unseen single (among _ seen), noPage⟩

/-- Of a kind that is accepted only once, a scan has one directive at most. -/
theorem directives_single : (scanRows source line offset block accepted rows).directives.Pairwise
    fun earlier later => earlier.kind.isSingle = true → later.kind ≠ earlier.kind := by
  induction rows generalizing line offset block accepted with
  | nil =>
    cases block <;> simp [scanRows]
  | cons row rows inductionHypothesis =>
    rcases scanRows_row source line offset block accepted row rows with
      ⟨written, -, -, ⟨fault, -, shape⟩ | ⟨-, shape⟩⟩ | ⟨rest, rfl, shape⟩
    · rw [shape]
      exact inductionHypothesis
    · rw [shape]
      refine .cons ?_ inductionHypothesis
      intro later member single same
      have unseen := (directive_kind member).1 (same ▸ single)
      exact unseen (same ▸ List.mem_cons_self)
    · rw [shape]
      exact inductionHypothesis

end Scanned

end ViewCompiler

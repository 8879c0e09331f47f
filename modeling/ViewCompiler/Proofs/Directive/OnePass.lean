import ViewCompiler.Proofs.Directive.Automaton
import ViewCompiler.Proofs.Directive.Positions

/-!
# A scan is one pass of the automaton

A scan takes a document line by line, and searches each line again behind every block that ends
on it. The automaton reads the same document once. At every line feed the two agree: on what was
found up to there, and on the block that is open. So they agree at the end of the document, where
a block that is open is the last error of the scan, and the only one of its kind.
-/

namespace ViewCompiler

open Text

namespace Scanned

/-- What two parts of a document hold together. -/
def join (one other : Scanned) : Scanned :=
  { directives := one.directives ++ other.directives
    markup := one.markup ++ other.markup
    errors := one.errors ++ other.errors }

/-- No open block is reported. -/
def Unreported (scanned : Scanned) : Prop :=
  ∀ error ∈ scanned.errors, error.message ≠ DirectiveFault.openBlock.message

/-- The kinds of the accepted directives, the last one first. -/
def kinds (scanned : Scanned) : List DirectiveKind := (scanned.directives.map (·.kind)).reverse

end Scanned

/-- The order in which kinds were accepted makes no difference to a directive. -/
theorem Directive.fault?_reverse (accepted : List DirectiveKind) (inImport : Bool)
    (kind : DirectiveKind) (value : Text) :
    fault? accepted.reverse inImport kind value = fault? accepted inImport kind value := by
  simp [fault?]

/-- Only an open block is reported in the words for one. -/
theorem DirectiveFault.message_openBlock {fault : DirectiveFault} (other : fault ≠ .openBlock) :
    fault.message ≠ DirectiveFault.openBlock.message := by
  cases fault with
  | pageInImport => decide
  | noValue kind => cases kind <;> decide
  | noName => decide
  | repeated kind => cases kind <;> decide
  | openBlock => exact absurd rfl other

/-- A directive is not refused for an open block. -/
theorem Directive.fault?_ne_openBlock {accepted : List DirectiveKind} {inImport : Bool}
    {kind : DirectiveKind} {value : Text} {fault : DirectiveFault}
    (refused : fault? accepted inImport kind value = some fault) : fault ≠ .openBlock := by
  unfold fault? at refused
  grind

namespace Automaton

variable {source : Scanned.Source} {row tail : Text}

/-- The text is at the end of a line. -/
def EndsLine (tail : Text) : Prop := tail = [] ∨ ∃ behind, tail = '\n' :: behind

/-- What is left of a line ends where the row does. -/
theorem restOfLine_append (free : '\n' ∉ row) (ends : EndsLine tail) :
    restOfLine (row ++ tail) = chopReturn row := by
  have kept : ∀ char ∈ row, (char != '\n') = true := fun char member =>
    bne_iff_ne.mpr fun feed => free (feed ▸ member)
  have cut : tail.takeWhile (· != '\n') = [] := by
    rcases ends with rfl | ⟨behind, rfl⟩ <;> rfl
  rw [restOfLine, List.takeWhile_append_of_pos kept, cut, List.append_nil]

/-- A carriage return makes no difference at the end of its line. -/
theorem Mode.next_return (place : Location) (joined : Bool) (rest : Text) (mode : Mode) :
    (mode.next place joined rest '\r').atLineEnd = mode.atLineEnd := by
  cases mode with
  | outside => rfl
  | directive => rfl
  | inside block literal =>
    cases literal with
    | none => rfl
    | some literal =>
      simp only [next]
      repeat' split
      all_goals rfl

/-- The characters of a line lead where its text leads, whether or not there is a carriage
return behind it. -/
theorem run_row (source : Scanned.Source) (free : '\n' ∉ row) (ends : EndsLine tail)
    {start : Location} {length : Nat} (automaton : Automaton)
    (reaches : (chopReturn row).length ≤ length)
    (stands : automaton.place = start.along (length - (chopReturn row).length)) :
    ∃ mode joined,
      run source automaton (row ++ tail) = run source { automaton with
        mode := mode, place := automaton.place.along row.length, joined := joined } tail ∧
      mode.atLineEnd = Mode.across (fun left => start.along (length - left)) automaton.joined
        automaton.mode (chopReturn row) := by
  fun_induction chopReturn row generalizing automaton with
  | case1 => exact ⟨automaton.mode, automaton.joined, rfl, rfl⟩
  | case2 =>
    refine ⟨automaton.mode.next automaton.place automaton.joined (restOfLine tail) '\r',
      isAlphanumeric '\r', rfl, ?_⟩
    exact Mode.next_return _ _ _ _
  | case3 first rest _ inductionHypothesis =>
    obtain ⟨plain, behind⟩ := List.ne_and_not_mem_of_not_mem_cons free
    have room : (chopReturn rest).length + 1 ≤ length := reaches
    have stepped : step source (rest ++ tail) automaton first = { automaton with
        mode := automaton.mode.next (start.along (length - ((chopReturn rest).length + 1)))
          automaton.joined (chopReturn rest) first
        place := automaton.place.along 1
        joined := isAlphanumeric first } := by
      rw [step, if_neg (Ne.symm plain), restOfLine_append behind ends, stands]
      rfl
    have onward : (step source (rest ++ tail) automaton first).place =
        start.along (length - (chopReturn rest).length) := by
      have next : length - ((chopReturn rest).length + 1) + 1 = length - (chopReturn rest).length := by
        omega
      rw [stepped, ← next, ← Location.along_along]
      exact congrArg (·.along 1) stands
    obtain ⟨mode, joined, reached, leads⟩ :=
      inductionHypothesis behind _ (Nat.le_of_succ_le room) onward
    rw [stepped] at reached leads
    refine ⟨mode, joined, ?_, leads⟩
    rw [List.cons_append, run, stepped, reached, Location.along_along, Nat.add_comm 1]
    rfl

/-- The automaton at the beginning of a line, inside the block that is open there. -/
def atLine (source : Scanned.Source) (line offset : Nat) (block : Option OpenBlock)
    (found : Scanned) : Automaton :=
  { mode := .between block, place := ⟨source.file, offset, line, 0⟩, found := found }

/-- The beginning of a line changes what was found as the line's row changes a scan, and the
rest of the line leads to the block that is open in the scan behind the row. -/
theorem beginLine_row (source : Scanned.Source) (free : '\n' ∉ row) (ends : EndsLine tail)
    (line offset : Nat) (block : Option OpenBlock) (found : Scanned) :
    ∃ mode found' block',
      beginLine source (row ++ tail) (atLine source line offset block found) =
        { mode, place := ⟨source.file, offset, line, 0⟩, found := found' } ∧
      Mode.across (Scanned.placeOn source line offset row) false mode (chopReturn row) =
        .between block' ∧
      ∀ rows, found.join (Scanned.scanRows source line offset block found.kinds (row :: rows)) =
        found'.join (Scanned.scanRows source (line + 1) (offset + row.length + 1) block'
          found'.kinds rows) := by
  have markup : Mode.across (Scanned.placeOn source line offset row) false (.between block)
      (chopReturn row) = .between
        (Block.afterLine (Scanned.placeOn source line offset row) block (chopReturn row)) :=
    Mode.across_line _ block (chopReturn row)
  simp only [beginLine, atLine, restOfLine_append free ends, Scanned.scanRows]
  cases block with
  | some block =>
    refine ⟨_, _, _, rfl, markup, fun rows => ?_⟩
    simp only [Scanned.join, List.append_assoc]
    rfl
  | none =>
    cases Directive.read? (chopReturn row) with
    | none =>
      refine ⟨_, _, _, rfl, markup, fun rows => ?_⟩
      simp only [Scanned.join, List.append_assoc]
      rfl
    | some written =>
      have passed : Mode.across (Scanned.placeOn source line offset row) false .directive
          (chopReturn row) = .between none := Mode.across_directive _ false (chopReturn row)
      simp only [Mode.between, Scanned.kinds, Directive.fault?_reverse]
      cases Directive.fault? (found.directives.map (·.kind)) source.inImport written.kind
          (trim written.rest) with
      | some fault =>
        refine ⟨.directive, _, none, rfl, passed, fun rows => ?_⟩
        simp [Scanned.join, Location.along]
      | none =>
        refine ⟨.directive, _, none, rfl, passed, fun rows => ?_⟩
        simp [Scanned.join]

/-- Behind a line the automaton has found what the line's row adds to a scan, and it is inside
the block that is open behind the row. -/
theorem run_line (source : Scanned.Source) (free : '\n' ∉ row) (ends : EndsLine tail)
    (line offset : Nat) (block : Option OpenBlock) (found : Scanned) :
    ∃ behind block',
      run source (beginLine source (row ++ tail) (atLine source line offset block found))
          (row ++ tail) = run source behind tail ∧
      behind.place = ⟨source.file, offset + row.length, line, row.length⟩ ∧
      behind.mode.atLineEnd = .between block' ∧
      ∀ rows, found.join (Scanned.scanRows source line offset block found.kinds (row :: rows)) =
        behind.found.join (Scanned.scanRows source (line + 1) (offset + row.length + 1) block'
          behind.found.kinds rows) := by
  obtain ⟨begun, found', block', begins, leads, adds⟩ :=
    beginLine_row source free ends line offset block found
  let start : Location := ⟨source.file, offset, line, 0⟩
  have places : Scanned.placeOn source line offset row =
      fun left => start.along ((chopReturn row).length - left) := by
    funext left
    simp [Scanned.placeOn, Location.along, start]
  rw [places] at leads
  have stands : start = start.along ((chopReturn row).length - (chopReturn row).length) := by
    rw [Nat.sub_self, Location.along_zero]
  obtain ⟨mode, joined, reached, last⟩ :=
    run_row source free ends { mode := begun, place := start, found := found' } (Nat.le_refl _)
      stands
  refine ⟨⟨mode, start.along row.length, joined, found'⟩, block', ?_, ?_, last.trans leads, adds⟩
  · rw [begins]
    exact reached
  · simp [Location.along, start]

/-- What was found, with the error of a block that is open. -/
def result (automaton : Automaton) : Scanned :=
  { automaton.found with errors := automaton.found.errors ++ automaton.unclosed }

/-- At the end of the text the automaton is inside the block that is open in a scan. -/
theorem result_nil {automaton : Automaton} {block : Option OpenBlock}
    (leads : automaton.mode.atLineEnd = .between block) (line offset : Nat)
    (accepted : List DirectiveKind) :
    automaton.result =
      automaton.found.join (Scanned.scanRows source line offset block accepted []) := by
  obtain ⟨mode, place, joined, found⟩ := automaton
  cases mode <;> cases block <;> cases leads <;>
    simp [result, unclosed, Scanned.join, Scanned.scanRows]

/-- From the beginning of a line on, the automaton finds what a scan of the rows from there on
finds, beside what was found before. -/
theorem result_scanRows (source : Scanned.Source) (content : Text) (line offset : Nat)
    (block : Option OpenBlock) (found : Scanned) :
    (run source (beginLine source content (atLine source line offset block found)) content).result =
      found.join (Scanned.scanRows source line offset block found.kinds (rows content)) := by
  induction shape : rows content generalizing content block line offset found with
  | nil => exact absurd shape (pieces_ne_nil _ _)
  | cons row more inductionHypothesis =>
    rcases content.rows_split with ⟨free, single⟩ | ⟨first, rest, rfl, free, split⟩
    · obtain ⟨rfl, rfl⟩ := List.cons.inj (single.symm.trans shape)
      obtain ⟨behind, block', reached, -, leads, adds⟩ :=
        run_line source free (.inl rfl) line offset block found
      rw [List.append_nil] at reached
      rw [reached, adds]
      exact result_nil leads _ _ _
    · obtain ⟨rfl, rfl⟩ := List.cons.inj (split.symm.trans shape)
      obtain ⟨behind, block', reached, stands, leads, adds⟩ :=
        run_line source free (.inr ⟨rest, rfl⟩) line offset block found
      rw [reached, adds, ← inductionHypothesis rest (line + 1) _ block' behind.found rfl]
      rw [run, step, if_pos rfl, leads, stands]
      rfl

/-- Where a line begins, only a directive is refused. -/
theorem beginLine_unreported {automaton : Automaton} (sound : automaton.found.Unreported)
    (ahead : Text) : (beginLine source ahead automaton).found.Unreported := by
  simp only [beginLine]
  split
  · split
    · rename_i fault refused
      intro error member
      rcases List.mem_append.mp member with before | here
      · exact sound error before
      · obtain rfl := List.mem_singleton.mp here
        exact DirectiveFault.message_openBlock (Directive.fault?_ne_openBlock refused)
    · exact sound
  · exact sound

/-- A character makes no open block reported. -/
theorem step_unreported {automaton : Automaton} (sound : automaton.found.Unreported)
    (ahead : Text) (char : Char) : (step source ahead automaton char).found.Unreported := by
  unfold step
  split
  · refine beginLine_unreported ?_ ahead
    exact sound
  · exact sound

/-- Neither does a text. Only the end of the document does. -/
theorem run_unreported {automaton : Automaton} (sound : automaton.found.Unreported)
    (text : Text) : (run source automaton text).found.Unreported := by
  induction text generalizing automaton with
  | nil => exact sound
  | cons char ahead inductionHypothesis =>
    exact inductionHypothesis (step_unreported sound ahead char)

/-- The automaton itself reports no open block. -/
theorem read_unreported (source : Scanned.Source) (content : Text) :
    (read source content).found.Unreported := by
  apply run_unreported
  apply beginLine_unreported
  simp [Scanned.Unreported]

/-- A whole document is read as it is scanned. -/
theorem read_result (document : SourceDocument) (file : Option Text) (inImport : Bool) :
    (read ⟨file, inImport⟩ document.content).result =
      Scanned.ofDocument document file inImport := by
  have whole := result_scanRows ⟨file, inImport⟩ document.content 0 0 none {}
  exact whole.trans (by simp [Scanned.join, Scanned.kinds, Scanned.ofDocument])

end Automaton

namespace Scanned

/-- What a scan finds is what the automaton finds that reads the document once, from left to
right. A block that is missing its end is reported if the automaton ends inside a block, and only
then: once, as the last error, at the opener of that block. -/
theorem ofDocument_onePass (document : SourceDocument) (file : Option Text) (inImport : Bool) :
    let automaton := Automaton.read ⟨file, inImport⟩ document.content
    let scanned := ofDocument document file inImport
    let missing := DirectiveFault.openBlock.message
    scanned.directives = automaton.found.directives ∧
      scanned.markup = automaton.found.markup ∧
      scanned.errors = automaton.found.errors ++ automaton.unclosed ∧
      (∀ error ∈ automaton.found.errors, error.message ≠ missing) ∧
      ((∃ error ∈ scanned.errors, error.message = missing) ↔
        ∃ block literal, automaton.mode = .inside block literal) ∧
      ∀ block literal, automaton.mode = .inside block literal →
        scanned.errors = automaton.found.errors ++ [⟨missing, block.location, 1⟩] := by
  intro automaton scanned missing
  have same : scanned = automaton.result := (Automaton.read_result document file inImport).symm
  have unreported : automaton.found.Unreported := Automaton.read_unreported _ _
  have errors : scanned.errors = automaton.found.errors ++ automaton.unclosed := by rw [same]; rfl
  have last (block : OpenBlock) (literal : Option Automaton.Literal)
      (ends : automaton.mode = .inside block literal) :
      automaton.unclosed = [⟨missing, block.location, 1⟩] := by
    rw [Automaton.unclosed, ends]
  refine ⟨by rw [same]; rfl, by rw [same]; rfl, errors, unreported, ⟨?_, ?_⟩, ?_⟩
  · rintro ⟨error, member, reported⟩
    rw [errors] at member
    have here := (List.mem_append.mp member).resolve_left fun before =>
      unreported error before reported
    unfold Automaton.unclosed at here
    split at here
    · rename_i block literal ends
      exact ⟨block, literal, ends⟩
    · cases here
  · rintro ⟨block, literal, ends⟩
    refine ⟨⟨missing, block.location, 1⟩, ?_, rfl⟩
    rw [errors, last block literal ends]
    exact List.mem_append_right _ (List.mem_singleton_self _)
  · intro block literal ends
    rw [errors, last block literal ends]

/-- An address opens no block, a brace in a literal ends none, and a directive inside a block is
code: what is missing is the end of the block that the third line opens. -/
theorem ofDocument_onePass_unclosed :
    let document : SourceDocument :=
      ⟨none, "a@if.b @\x7b '\x7d' \x7d @model X\r\n@model A\n@for \x7b\n@model \"B"⟩
    let automaton := Automaton.read ⟨none, false⟩ document.content
    let block : OpenBlock := { depth := 1, entered := true, location := ⟨none, 35, 2, 0⟩ }
    let literal : Automaton.Literal := { quote := '"' }
    automaton.mode = .inside block (some literal) ∧
      (ofDocument document none false).directives = [⟨.model, "A", 1, 0, 8⟩] ∧
      (ofDocument document none false).errors =
        [⟨DirectiveFault.openBlock.message, block.location, 1⟩] := by
  intro document automaton block literal
  have ends : automaton.mode = .inside block (some literal) := by decide +kernel
  have directives : automaton.found.directives = [⟨.model, "A", 1, 0, 8⟩] := by decide +kernel
  have errors : automaton.found.errors = [] := by decide +kernel
  obtain ⟨ofDirectives, -, -, -, -, ofErrors⟩ := ofDocument_onePass document none false
  refine ⟨ends, ofDirectives.trans directives, ?_⟩
  have only := ofErrors block (some literal) ends
  rwa [errors, List.nil_append] at only

end Scanned

end ViewCompiler

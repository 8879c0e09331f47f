import ViewCompiler.Proofs.Manifest.TypeGrammar

/-!
# Names of types

The scan of a page class accepts a text as the name of a type if its blanks between the brackets
of lists are left out and what remains is in the second of the two grammars. So every name of the
grammar is accepted, and what is accepted is a name of the grammar exactly if its neighbours may
stand beside each other; the scan itself does not look at them.

One character at a time, the scan counts the open lists and remembers whether a segment has to
begin. Where a list is open, it comes to the bracket that closes this list, because the inner
lists are closed before.
-/

namespace ViewCompiler.TypeName

open Text

/-! ## The scan, one character at a time -/

/-- How many lists are open behind a character. -/
def depthAfter (depth : Nat) (char : Char) : Nat :=
  if char = '<' then depth + 1 else if char = '>' then depth - 1 else depth

/-- The characters that the scan passes, with the number of open lists and whether a segment
has to begin, before and behind them. -/
inductive Step : Nat → Bool → Char → Nat → Bool → Prop
  | starts {depth : Nat} {expecting : Bool} {char : Char} (starts : Starts char) :
      Step depth expecting char depth false
  | digit {depth : Nat} {char : Char} (digit : char.isDigit = true) :
      Step depth false char depth false
  | mark {depth : Nat} {char : Char} (marks : IsMark char) : Step depth false char depth false
  | dot {depth : Nat} : Step depth false '.' depth true
  | comma {depth : Nat} : Step (depth + 1) false ',' (depth + 1) true
  | opening {depth : Nat} : Step depth false '<' (depth + 1) true
  | closing {depth : Nat} : Step (depth + 1) false '>' depth false
  | blank {depth : Nat} {expecting : Bool} : Step (depth + 1) expecting ' ' (depth + 1) expecting

variable {depth next : Nat} {expecting expected inside : Bool} {char : Char} {rest text : Text}

/-- The scan goes on behind a character that it passes. -/
theorem Step.passes (step : Step depth expecting char next expected) (rest : Text) :
    isTypeRest depth expecting (char :: rest) = isTypeRest next expected rest := by
  cases step with
  | starts starts =>
    have letter : (isAlphabetic char || char == '_') = true := by simpa [Starts] using starts
    simp [isTypeRest, letter]
  | digit digit =>
    cases letter : isAlphabetic char || char == '_' <;> simp [isTypeRest, letter, digit]
  | mark marks =>
    rcases marks with rfl | rfl | rfl <;> simp [isTypeRest, outside_segments]
  | dot => simp [isTypeRest, outside_segments]
  | comma => simp [isTypeRest, outside_segments]
  | opening => simp [isTypeRest, outside_segments]
  | closing => simp [isTypeRest, outside_segments]
  | blank => simp [isTypeRest, outside_segments]

/-- The scan accepts a text if it passes the first character and accepts the rest. -/
theorem isTypeRest_cons_iff : isTypeRest depth expecting (char :: rest) = true ↔
    ∃ next expected, Step depth expecting char next expected ∧
      isTypeRest next expected rest = true := by
  refine ⟨fun accepted => ?_, fun ⟨next, expected, step, further⟩ => step.passes rest ▸ further⟩
  suffices passed : ∃ next expected, Step depth expecting char next expected by
    obtain ⟨next, expected, step⟩ := passed
    exact ⟨next, expected, step, step.passes rest ▸ accepted⟩
  unfold isTypeRest at accepted
  split at accepted
  · rename_i letter
    exact ⟨depth, false, .starts (by simpa [Starts] using letter)⟩
  split at accepted
  · rename_i digit
    obtain ⟨rfl, -⟩ : expecting = false ∧ _ := by simpa using accepted
    exact ⟨depth, false, .digit digit⟩
  split at accepted
  · rename_i dot
    obtain ⟨rfl, -⟩ : expecting = false ∧ _ := by simpa using accepted
    obtain rfl : char = '.' := by simpa using dot
    exact ⟨depth, true, .dot⟩
  split at accepted
  · rename_i comma
    obtain ⟨⟨rfl, nested⟩, -⟩ : (expecting = false ∧ depth ≠ 0) ∧ _ := by simpa using accepted
    obtain rfl : char = ',' := by simpa using comma
    obtain ⟨outer, rfl⟩ := Nat.exists_eq_succ_of_ne_zero nested
    exact ⟨outer + 1, true, .comma⟩
  split at accepted
  · rename_i opening
    obtain ⟨rfl, -⟩ : expecting = false ∧ _ := by simpa using accepted
    obtain rfl : char = '<' := by simpa using opening
    exact ⟨depth + 1, true, .opening⟩
  split at accepted
  · rename_i closing
    obtain ⟨⟨rfl, nested⟩, -⟩ : (expecting = false ∧ depth ≠ 0) ∧ _ := by simpa using accepted
    obtain rfl : char = '>' := by simpa using closing
    obtain ⟨outer, rfl⟩ := Nat.exists_eq_succ_of_ne_zero nested
    exact ⟨outer, false, .closing⟩
  split at accepted
  · rename_i blank
    obtain ⟨rfl, nested⟩ : char = ' ' ∧ depth ≠ 0 := by simpa using blank
    obtain ⟨outer, rfl⟩ := Nat.exists_eq_succ_of_ne_zero nested
    exact ⟨outer + 1, expecting, .blank⟩
  · obtain ⟨⟨marks, rfl⟩, -⟩ :
        (((char = '[' ∨ char = ']') ∨ char = '?') ∧ expecting = false) ∧ _ := by
      simpa using accepted
    exact ⟨depth, false, .mark (or_assoc.mp marks)⟩

/-! ## Blanks between the brackets of a list -/

/-- The scan counts the open lists as brackets tell them. -/
theorem Step.depthAfter (step : Step depth expecting char next expected) :
    next = depthAfter depth char := by
  have plain {char : Char} (continues : Continues char) : char ≠ '<' ∧ char ≠ '>' :=
    ⟨fun same => not_continues (by simp [same]) continues,
      fun same => not_continues (by simp [same]) continues⟩
  cases step with
  | starts starts => simp [TypeName.depthAfter, plain (.inl starts)]
  | digit digit => simp [TypeName.depthAfter, plain (.inr digit)]
  | mark marks => rcases marks with rfl | rfl | rfl <;> rfl
  | dot | comma | opening | closing | blank => rfl

/-- A text without the blanks that stand between the brackets of a list. -/
def closeUp : (depth : Nat) → Text → Text
  | _, [] => []
  | depth, char :: rest =>
    if char = ' ' ∧ depth ≠ 0 then closeUp depth rest
    else char :: closeUp (depthAfter depth char) rest

/-- A text without blanks has none to leave out. -/
theorem closeUp_of_not_mem (solid : ' ' ∉ text) : closeUp depth text = text := by
  induction text generalizing depth with
  | nil => rfl
  | cons char text inductionHypothesis =>
    obtain ⟨differs, further⟩ := not_or.mp (mt List.mem_cons.mpr solid)
    rw [closeUp, if_neg fun blank => differs blank.1.symm, inductionHypothesis further]

/-- These blanks make no difference to the scan. -/
theorem isTypeRest_closeUp (text : Text) :
    isTypeRest depth expecting (closeUp depth text) = isTypeRest depth expecting text := by
  induction text generalizing depth expecting with
  | nil => rfl
  | cons char text inductionHypothesis =>
    rw [closeUp]
    split
    · rename_i blank
      obtain ⟨rfl, nested⟩ := blank
      obtain ⟨outer, rfl⟩ := Nat.exists_eq_succ_of_ne_zero nested
      rw [inductionHypothesis, Step.blank.passes]
    · rw [Bool.eq_iff_iff, isTypeRest_cons_iff, isTypeRest_cons_iff]
      apply exists_congr
      intro next
      apply exists_congr
      intro expected
      apply and_congr_right
      intro step
      rw [step.depthAfter, inductionHypothesis]

/-- No other blanks are accepted. -/
theorem not_mem_closeUp (accepted : isTypeRest depth expecting (closeUp depth text) = true) :
    ' ' ∉ closeUp depth text := by
  induction text generalizing depth expecting with
  | nil => exact List.not_mem_nil
  | cons char text inductionHypothesis =>
    rw [closeUp] at accepted ⊢
    split
    · rename_i blank
      rw [if_pos blank] at accepted
      exact inductionHypothesis accepted
    · rename_i kept
      rw [if_neg kept] at accepted
      obtain ⟨next, expected, step, further⟩ := isTypeRest_cons_iff.mp accepted
      obtain rfl := step.depthAfter
      refine List.not_mem_cons_of_ne_of_not_mem ?_ (inductionHypothesis further)
      rintro rfl
      cases step with
      | starts starts => exact not_continues (by simp) (.inl starts)
      | digit digit => exact not_continues (by simp) (.inr digit)
      | mark marks => simp [IsMark] at marks
      | blank => simp at kept

/-! ## The scan and the second grammar -/

/-- The scan passes a text of the second grammar, and the segment that it ends in has begun. -/
theorem Lax.passes (lax : Lax inside text) (nested : inside = true → depth ≠ 0) (rest : Text) :
    isTypeRest depth expecting (text ++ rest) = isTypeRest depth false rest := by
  induction lax generalizing depth expecting rest with
  | letter starts => exact (Step.starts starts).passes rest
  | longer _ continues inductionHypothesis =>
    rw [List.append_assoc, inductionHypothesis nested]
    rcases continues with starts | digit
    · exact (Step.starts starts).passes rest
    · exact (Step.digit digit).passes rest
  | mark _ marks inductionHypothesis =>
    rw [List.append_assoc, inductionHypothesis nested]
    exact (Step.mark marks).passes rest
  | dotted _ starts inductionHypothesis =>
    rw [List.append_assoc, inductionHypothesis nested, List.cons_append, Step.dot.passes]
    exact (Step.starts starts).passes rest
  | listed _ starts inductionHypothesis =>
    obtain ⟨outer, rfl⟩ := Nat.exists_eq_succ_of_ne_zero (nested rfl)
    rw [List.append_assoc, inductionHypothesis nested, List.cons_append, Step.comma.passes]
    exact (Step.starts starts).passes rest
  | applied _ _ front arguments =>
    rw [List.append_assoc, front nested, List.cons_append, Step.opening.passes, List.append_assoc,
      arguments fun _ => Nat.succ_ne_zero _]
    exact Step.closing.passes rest

/-- What has been scanned where the scan stands: a text of the grammar, or one with a separator
behind it, or nothing. -/
def Scanned (inside : Bool) : (expecting : Bool) → Text → Prop
  | false, front => Lax inside front
  | true, front => ∀ first, Starts first → Lax inside (front ++ [first])

/-- A character that begins a segment may follow in both states of the scan: it begins one, or goes
on with one. -/
theorem Scanned.starts {front : Text} (scanned : Scanned inside expecting front)
    (starts : Starts char) : Lax inside (front ++ [char]) := by
  cases expecting with
  | true => exact scanned char starts
  | false => exact .longer scanned (.inl starts)

/-- Before the first character a segment has to begin. -/
theorem scanned_nil : Scanned inside true [] := fun _ starts => .letter starts

/-- So it has behind a dot. -/
theorem scanned_dot {front : Text} (scanned : Lax inside front) :
    Scanned inside true (front ++ ['.']) := by
  intro first starts
  rw [List.append_assoc]
  exact .dotted scanned starts

/-- So it has behind a comma between the brackets of a list. -/
theorem scanned_comma {front : Text} (scanned : Lax true front) :
    Scanned true true (front ++ [',']) := by
  intro first starts
  rw [List.append_assoc]
  exact .listed scanned starts

/-- Where a list is open, the scan comes to the bracket that closes it, and has scanned the
arguments until there. The induction is on the length, because what is behind the bracket of
an inner list is scanned for the outer one. -/
theorem exists_closing (accepted : isTypeRest (depth + 1) expecting text = true)
    (plain : ' ' ∉ text) :
    ∃ arguments rest, text = arguments ++ '>' :: rest ∧ isTypeRest depth false rest = true ∧
      ∀ front, Scanned true expecting front → Lax true (front ++ arguments) := by
  induction length : text.length using Nat.strongRecOn generalizing depth expecting text with
  | ind size inductionHypothesis =>
    cases text with
    | nil => simp [isTypeRest] at accepted
    | cons char text =>
      obtain ⟨differs, solid⟩ := not_or.mp (mt List.mem_cons.mpr plain)
      rw [List.length_cons] at length
      have further {expected : Bool} (accepted : isTypeRest (depth + 1) expected text = true)
          (carried : ∀ front, Scanned true expecting front → Scanned true expected (front ++ [char])) :
          ∃ arguments rest, char :: text = arguments ++ '>' :: rest ∧
            isTypeRest depth false rest = true ∧
            ∀ front, Scanned true expecting front → Lax true (front ++ arguments) := by
        obtain ⟨arguments, rest, rfl, behind, lax⟩ :=
          inductionHypothesis text.length (by omega) accepted solid rfl
        refine ⟨char :: arguments, rest, rfl, behind, fun front scanned => ?_⟩
        simpa using lax (front ++ [char]) (carried front scanned)
      obtain ⟨next, expected, step, accepted⟩ := isTypeRest_cons_iff.mp accepted
      cases step with
      | starts starts => exact further accepted fun _ scanned => scanned.starts starts
      | digit digit => exact further accepted fun _ scanned => .longer scanned (.inr digit)
      | mark marks => exact further accepted fun _ scanned => .mark scanned marks
      | dot => exact further accepted fun _ scanned => scanned_dot scanned
      | comma => exact further accepted fun _ scanned => scanned_comma scanned
      | opening =>
        obtain ⟨inner, between, rfl, behind, list⟩ :=
          inductionHypothesis text.length (by omega) accepted solid rfl
        have types : Lax true inner := list [] scanned_nil
        have shorter : between.length < size := by
          simp only [List.length_append, List.length_cons] at length
          omega
        obtain ⟨arguments, rest, rfl, outside, lax⟩ :=
          inductionHypothesis between.length shorter behind (by simp_all) rfl
        refine ⟨'<' :: (inner ++ ['>']) ++ arguments, rest, by simp, outside,
          fun front scanned => ?_⟩
        rw [← List.append_assoc]
        exact lax _ (.applied scanned types)
      | closing =>
        exact ⟨[], text, rfl, accepted,
          fun front scanned => (List.append_nil front).symm ▸ scanned⟩
      | blank => exact absurd rfl differs

/-- Where no list is open, the rest of the text is scanned to its end. -/
theorem lax_of_scanned {front : Text} (accepted : isTypeRest 0 expecting text = true)
    (plain : ' ' ∉ text) (scanned : Scanned false expecting front) : Lax false (front ++ text) := by
  induction length : text.length using Nat.strongRecOn generalizing expecting text front with
  | ind size inductionHypothesis =>
    cases text with
    | nil =>
      obtain rfl : expecting = false := by simpa [isTypeRest] using accepted
      rwa [List.append_nil]
    | cons char text =>
      obtain ⟨differs, solid⟩ := not_or.mp (mt List.mem_cons.mpr plain)
      rw [List.length_cons] at length
      have further {expected : Bool} (accepted : isTypeRest 0 expected text = true)
          (carried : Scanned false expected (front ++ [char])) : Lax false (front ++ char :: text) := by
        simpa using inductionHypothesis text.length (by omega) accepted solid carried rfl
      obtain ⟨next, expected, step, accepted⟩ := isTypeRest_cons_iff.mp accepted
      cases step with
      | starts starts => exact further accepted (scanned.starts starts)
      | digit digit => exact further accepted (.longer scanned (.inr digit))
      | mark marks => exact further accepted (.mark scanned marks)
      | dot => exact further accepted (scanned_dot scanned)
      | opening =>
        obtain ⟨inner, between, rfl, behind, list⟩ := exists_closing accepted solid
        have types : Lax true inner := list [] scanned_nil
        have shorter : between.length < size := by
          simp only [List.length_append, List.length_cons] at length
          omega
        simpa using inductionHypothesis between.length shorter behind (by simp_all)
          (.applied scanned types) rfl

/-- The scan accepts the texts of the second grammar, up to the blanks in lists. -/
theorem isTypeName_iff : isTypeName text = true ↔ Lax false (closeUp 0 text) := by
  rw [isTypeName, ← isTypeRest_closeUp]
  constructor
  · intro accepted
    exact lax_of_scanned accepted (not_mem_closeUp accepted) scanned_nil
  · intro lax
    rw [← List.append_nil (closeUp 0 text), lax.passes nofun]
    rfl

/-- What is accepted as the name of a type is derived in the grammar of type names, blanks in
lists aside, exactly if all neighbours in it may stand beside each other; and everything that is
derived is accepted. -/
theorem isTypeName_derived (text : Text) :
    (isTypeName text = true ↔ Lax false (closeUp 0 text)) ∧
      (Derived .type (closeUp 0 text) ↔ isTypeName text = true ∧ Tidy (closeUp 0 text)) ∧
      (Derived .type text → isTypeName text = true ∧ closeUp 0 text = text) := by
  refine ⟨isTypeName_iff, ?_, fun derived => ?_⟩
  · rw [derived_iff, isTypeName_iff]
  · have lax : Lax false text := (derived_iff.mp derived).1
    have whole : closeUp 0 text = text := closeUp_of_not_mem lax.solid
    exact ⟨isTypeName_iff.mpr (whole.symm ▸ lax), whole⟩

/-- A list in a list, with marks behind each. -/
theorem isTypeName_derived_nested :
    Derived .type "Map<a,List<b.c>[]>?" ∧ isTypeName "Map<a,List<b.c>[]>?" = true := by
  obtain ⟨-, stated, complete⟩ := isTypeName_derived "Map<a,List<b.c>[]>?"
  have derived : Derived .type "Map<a,List<b.c>[]>?" :=
    stated.mpr ⟨by decide +kernel, by decide +kernel⟩
  exact ⟨derived, (complete derived).1⟩

/-- An opening mark is accepted without its closing mark, though no name of a type ends in one. -/
theorem isTypeName_unpaired :
    isTypeName "int[" = true ∧ ¬ Derived .type (closeUp 0 "int[") := by
  refine ⟨by decide, fun derived => ?_⟩
  have tidy : Tidy (closeUp 0 "int[") := (derived_iff.mp derived).2
  exact absurd tidy (by decide)

end ViewCompiler.TypeName

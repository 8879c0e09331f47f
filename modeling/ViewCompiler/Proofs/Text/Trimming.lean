import ViewCompiler.Text.Blank

/-!
# Trimming

Trimming takes blanks from the ends and nothing else: it leaves a text alone that begins
and ends in solid characters, it does not see blanks that stand around another text, and
taking the blanks from one end first makes no difference.
-/

namespace ViewCompiler.Text

variable {blanks : Text}

/-- At the end of a text, only the part behind is trimmed unless nothing is left of it. -/
theorem trimEnd_append (front tail : Text) :
    trimEnd (front ++ tail) =
      if trimEnd tail = [] then trimEnd front else front ++ trimEnd tail := by
  induction front with
  | nil =>
    cases trimmed : trimEnd tail <;> simp [trimmed, trimEnd]
  | cons first front inductionHypothesis =>
    simp only [List.cons_append, trimEnd, inductionHypothesis]
    by_cases empty : trimEnd tail = []
    · simp [empty]
    · simp only [empty, ↓reduceIte]
      split
      · rename_i nothing
        exact absurd nothing (by simp [empty])
      · rfl

/-- A solid character at the end stays there. -/
@[simp] theorem trimEnd_concat (front : Text) {last : Char} (solid : isBlank last = false) :
    trimEnd (front ++ [last]) = front ++ [last] := by
  rw [trimEnd_append]
  simp [trimEnd, solid]

/-- Trimming the end adds no character. -/
theorem trimEnd_sublist (text : Text) : (trimEnd text).Sublist text := by
  induction text with
  | nil => exact List.Sublist.slnil
  | cons first text inductionHypothesis =>
    simp only [trimEnd]
    split
    · split
      · exact List.nil_sublist _
      · exact (List.nil_sublist text).cons_cons first
    · exact inductionHypothesis.cons_cons first

/-- What is trimmed at the end is blank, and what is left ends in a solid character unless
nothing is left. -/
theorem trimEnd_parts (text : Text) :
    (∃ tail, text = trimEnd text ++ tail ∧ ∀ char ∈ tail, isBlank char = true) ∧
      (trimEnd text = [] ∨
        ∃ front last, trimEnd text = front ++ [last] ∧ isBlank last = false) := by
  induction text with
  | nil => exact ⟨⟨[], rfl, by simp⟩, .inl rfl⟩
  | cons first text inductionHypothesis =>
    obtain ⟨⟨tail, parts, blank⟩, ends⟩ := inductionHypothesis
    cases trimmed : trimEnd text with
    | nil =>
      rw [trimmed, List.nil_append] at parts
      subst parts
      cases solid : isBlank first with
      | true =>
        refine ⟨⟨first :: text, ?_, by simpa [solid] using blank⟩, .inl ?_⟩ <;>
          simp [trimEnd, trimmed, solid]
      | false =>
        refine ⟨⟨text, ?_, blank⟩, .inr ⟨[], first, ?_, solid⟩⟩ <;>
          simp [trimEnd, trimmed, solid]
    | cons kept more =>
      have whole : trimEnd (first :: text) = first :: trimEnd text := by simp [trimEnd, trimmed]
      obtain ⟨front, last, shape, solid⟩ := ends.resolve_left (by simp [trimmed])
      rw [whole]
      refine ⟨⟨tail, congrArg (first :: ·) parts, blank⟩, .inr ⟨first :: front, last, ?_, solid⟩⟩
      rw [shape, List.cons_append]

/-- Trimming both ends adds no character. -/
theorem trim_sublist (text : Text) : (trim text).Sublist text :=
  (trimEnd_sublist _).trans (List.dropWhile_sublist isBlank)

/-- What is trimmed at the end is trimmed. -/
@[simp] theorem trimEnd_trimEnd (text : Text) : trimEnd (trimEnd text) = trimEnd text := by
  induction text with
  | nil => rfl
  | cons first text inductionHypothesis =>
    cases trimmed : trimEnd text with
    | nil => cases blank : isBlank first <;> simp [trimEnd, trimmed, blank]
    | cons kept more =>
      rw [trimmed] at inductionHypothesis
      simp only [trimEnd, trimmed] at inductionHypothesis ⊢
      rw [inductionHypothesis]

/-- The two ends do not meet. -/
theorem trimStart_trimEnd (text : Text) : trimStart (trimEnd text) = trimEnd (trimStart text) := by
  induction text with
  | nil => rfl
  | cons first text inductionHypothesis =>
    cases blank : isBlank first with
    | true =>
      have skipped : trimStart (first :: text) = trimStart text := by simp [trimStart, blank]
      rw [skipped, ← inductionHypothesis]
      cases trimmed : trimEnd text <;> simp [trimEnd, trimmed, trimStart, blank]
    | false =>
      have kept : trimStart (first :: text) = first :: text := by simp [trimStart, blank]
      rw [kept]
      cases trimmed : trimEnd text <;> simp [trimEnd, trimmed, trimStart, blank]

/-- Trimming a text that was trimmed at the end is trimming the text. -/
@[simp] theorem trim_trimEnd (text : Text) : trim (trimEnd text) = trim text := by
  rw [trim, trimStart_trimEnd, trimEnd_trimEnd, trim]

/-- Blanks in front of a text do not count. -/
theorem trim_append_left (text : Text) (blank : ∀ char ∈ blanks, isBlank char = true) :
    trim (blanks ++ text) = trim text := by
  induction blanks with
  | nil => rfl
  | cons first blanks inductionHypothesis =>
    have head : isBlank first = true := blank first (by simp)
    have behind := inductionHypothesis fun char member => blank char (by simp [member])
    simp only [trim, trimStart] at behind ⊢
    simp only [List.cons_append, List.dropWhile_cons, head, ↓reduceIte]
    exact behind

/-- A solid character in front stays there. -/
theorem trimEnd_cons {first : Char} (text : Text) (solid : isBlank first = false) :
    trimEnd (first :: text) = first :: trimEnd text := by
  cases trimmed : trimEnd text <;> simp [trimEnd, trimmed, solid]

/-- A text that begins with a solid character is trimmed at the end only. -/
theorem trim_cons {first : Char} (text : Text) (solid : isBlank first = false) :
    trim (first :: text) = trimEnd (first :: text) := by
  simp [trim, trimStart, solid]

/-- A text between solid characters is left alone. -/
theorem trim_solid (first last : Char) (middle : Text) (opening : isBlank first = false)
    (closing : isBlank last = false) :
    trim (first :: (middle ++ [last])) = first :: (middle ++ [last]) := by
  rw [trim_cons _ opening, ← List.cons_append, trimEnd_concat _ closing]

/-- A text without blanks is left alone. -/
theorem trim_of_solid {text : Text} (solid : ∀ char ∈ text, isBlank char = false) :
    trim text = text := by
  have ending : trimEnd text = text := by
    induction text with
    | nil => rfl
    | cons first text inductionHypothesis =>
      rw [trimEnd_cons text (solid first (by simp)),
        inductionHypothesis fun char member => solid char (by simp [member])]
  cases text with
  | nil => rfl
  | cons first text => rw [trim_cons text (solid first (by simp)), ending]

/-- A carriage return at the end is blank. -/
@[simp] theorem trim_chopReturn (text : Text) : trim (chopReturn text) = trim text := by
  have same : trimEnd (chopReturn text) = trimEnd text := by
    fun_induction chopReturn text with
    | case1 => rfl
    | case2 => decide
    | case3 first rest _ inductionHypothesis => simp only [trimEnd, inductionHypothesis]
  rw [← trim_trimEnd, same, trim_trimEnd]

/-- Only a carriage return is chopped from a line. -/
theorem chopReturn_parts (text : Text) :
    ∃ ending, text = chopReturn text ++ ending ∧ (ending = [] ∨ ending = ['\r']) := by
  fun_induction chopReturn text with
  | case1 => exact ⟨[], rfl, .inl rfl⟩
  | case2 => exact ⟨['\r'], rfl, .inr rfl⟩
  | case3 first rest _ inductionHypothesis =>
    obtain ⟨ending, parts, shape⟩ := inductionHypothesis
    exact ⟨ending, congrArg (first :: ·) parts, shape⟩

/-- Chopping a carriage return adds no character. -/
theorem chopReturn_sublist (text : Text) : (chopReturn text).Sublist text := by
  fun_induction chopReturn text with
  | case1 => exact List.Sublist.slnil
  | case2 => exact List.nil_sublist _
  | case3 first rest _ inductionHypothesis => exact inductionHypothesis.cons_cons first

end ViewCompiler.Text

import ViewCompiler.Proofs.Text.Cutting

/-!
# Filling in a mark

A text is filled in by cutting it at all occurrences of a mark and putting the parts together
again with the filling between them. The parts are free of the mark, which leaves one way only
to cut the text as long as no two occurrences of the mark can overlap. They cannot if the first
character of the mark does not come again in it.

The exchange of a mark from the left is this and nothing else: it passes a part unchanged,
because an occurrence that began in the part would either lie in it or go on with the first
character of the next mark.
-/

namespace ViewCompiler.Text

/-- The first text with every occurrence of the mark filled in is the second one: it is cut into
parts that are free of the mark, and these are put together with the filling in the place of the
marks between them. -/
inductive FilledIn (mark fill : Text) : Text → Text → Prop
  | part {part : Text} (free : ¬ mark <:+: part) : FilledIn mark fill part part
  | marked {part text filled : Text} (free : ¬ mark <:+: part)
      (further : FilledIn mark fill text filled) :
      FilledIn mark fill (part ++ mark ++ text) (part ++ fill ++ filled)

variable {mark fill text filled part rest : Text} {first : Char}

/-- Passing over characters leaves the exchange to what is behind them. -/
theorem exchange_passing (passing : Nat) (text : Text) :
    exchange mark fill passing text = exchange mark fill 0 (text.drop passing) := by
  induction text generalizing passing with
  | nil => cases passing <;> rfl
  | cons first text inductionHypothesis =>
    cases passing with
    | zero => rfl
    | succ passing => exact inductionHypothesis passing

/-- An occurrence is exchanged for the filling. -/
theorem exchange_mark (nonempty : mark ≠ []) (rest : Text) :
    exchange mark fill 0 (mark ++ rest) = fill ++ exchange mark fill 0 rest := by
  obtain ⟨first, more, rfl⟩ := List.exists_cons_of_ne_nil nonempty
  have begins : beginsWith (first :: more) (first :: (more ++ rest)) = true :=
    beginsWith_iff.mpr ⟨rest, rfl⟩
  have behind : (more ++ rest).drop ((first :: more).length - 1) = rest := by simp
  rw [List.cons_append, exchange, if_pos begins, exchange_passing, behind]

/-- A character at which no occurrence begins is kept. -/
theorem exchange_cons (other : ¬ mark <+: first :: rest) :
    exchange mark fill 0 (first :: rest) = first :: exchange mark fill 0 rest := by
  rw [exchange, if_neg (mt beginsWith_iff.mp other)]

/-- A text without the mark is kept. -/
theorem exchange_free (free : ¬ mark <:+: part) : exchange mark fill 0 part = part := by
  induction part with
  | nil => rfl
  | cons first part inductionHypothesis =>
    rw [exchange_cons (mt List.IsPrefix.isInfix free),
      inductionHypothesis (mt (List.IsInfix.trans · (List.suffix_cons first part).isInfix) free)]

variable {lead : Char} {more : Text}

/-- A text without the first character of the mark is free of the mark. -/
theorem not_infix_of_not_mem (absent : lead ∉ part) : ¬ lead :: more <:+: part :=
  fun inside => absent (inside.subset List.mem_cons_self)

/-- No occurrence begins in a part that is free of the mark, not even one that would go on in the
next mark. -/
theorem not_prefix_part (single : lead ∉ more) (free : ¬ lead :: more <:+: first :: part) :
    ¬ lead :: more <+: first :: (part ++ (lead :: more ++ rest)) := by
  intro begins
  rw [← List.cons_append] at begins
  rcases List.prefix_or_prefix_of_prefix begins (List.prefix_append _ _) with inside | across
  · exact free inside.isInfix
  · obtain ⟨behind, whole⟩ := across
    -- What goes on behind the part begins as the next mark does.
    have follows : behind <+: lead :: more ++ rest := by
      obtain ⟨tail, same⟩ := begins
      rw [← whole, List.append_assoc, List.append_cancel_left_eq, whole] at same
      exact ⟨tail, same⟩
    cases behind with
    | nil => exact free (by simp [← whole])
    | cons next behind =>
      obtain rfl : next = lead := (List.cons_prefix_cons.mp follows).1
      obtain ⟨-, rest⟩ := List.cons.inj whole
      exact single (rest ▸ by simp)

/-- The exchange keeps a part before a mark, and the mark gives way to the filling. -/
theorem exchange_part (single : lead ∉ more) (free : ¬ lead :: more <:+: part) (rest : Text) :
    exchange (lead :: more) fill 0 (part ++ (lead :: more) ++ rest) =
      part ++ fill ++ exchange (lead :: more) fill 0 rest := by
  induction part with
  | nil => exact exchange_mark (List.cons_ne_nil _ _) rest
  | cons first part inductionHypothesis =>
    have shorter : ¬ lead :: more <:+: part :=
      mt (List.IsInfix.trans · (List.suffix_cons first part).isInfix) free
    have further := inductionHypothesis shorter
    rw [List.append_assoc] at further ⊢
    rw [List.cons_append, exchange_cons (not_prefix_part single free), further]
    rfl

/-- Filling in is the exchange of the mark. -/
theorem FilledIn.exchange_eq (single : lead ∉ more)
    (filling : FilledIn (lead :: more) fill text filled) :
    exchange (lead :: more) fill 0 text = filled := by
  induction filling with
  | part free => exact exchange_free free
  | marked free _ inductionHypothesis => rw [exchange_part single free, inductionHypothesis]

/-- A text is filled in where a character without the mark is put in front of one that is. -/
theorem FilledIn.cons (filling : FilledIn mark fill text filled) (other : ¬ mark <+: first :: text) :
    FilledIn mark fill (first :: text) (first :: filled) := by
  have longer {part text : Text} (free : ¬ mark <:+: part)
      (other : ¬ mark <+: first :: part ++ text) : ¬ mark <:+: first :: part := by
    intro inside
    rcases List.infix_cons_iff.mp inside with begins | later
    · exact other (begins.trans (List.prefix_append _ _))
    · exact free later
  cases filling with
  | part free => exact .part (longer free (List.append_nil text |>.symm ▸ other))
  | @marked part text filled free further =>
    rw [List.append_assoc] at other
    exact .marked (longer free other) further

/-- Every text can be cut at a mark, so that it is filled in. -/
theorem filledIn_exchange (nonempty : mark ≠ []) (text : Text) :
    FilledIn mark fill text (exchange mark fill 0 text) := by
  induction size : text.length using Nat.strongRecOn generalizing text with
  | ind size inductionHypothesis =>
    subst size
    cases text with
    | nil => exact .part (by simpa using nonempty)
    | cons first text =>
      by_cases begins : mark <+: first :: text
      · obtain ⟨rest, whole⟩ := begins
        have shorter : rest.length < (first :: text).length := by
          have long : 0 < mark.length := List.length_pos_iff.mpr nonempty
          simp [← whole, long]
        have free : ¬ mark <:+: [] := by simpa using nonempty
        rw [← whole, exchange_mark nonempty]
        exact FilledIn.marked free (inductionHypothesis _ shorter rest rfl)
      · rw [exchange_cons begins]
        exact (inductionHypothesis _ (Nat.lt_succ_self _) text rfl).cons begins

/-- A text has exactly one way to be filled in, and the exchange finds it. -/
theorem filledIn_iff (single : lead ∉ more) :
    FilledIn (lead :: more) fill text filled ↔ filled = exchange (lead :: more) fill 0 text := by
  constructor
  · intro filling
    exact (filling.exchange_eq single).symm
  · rintro rfl
    exact filledIn_exchange (List.cons_ne_nil _ _) text

end ViewCompiler.Text

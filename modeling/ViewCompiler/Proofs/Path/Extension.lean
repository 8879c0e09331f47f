import ViewCompiler.Proofs.Path.ImportChain

/-!
# Extensions

The extension of a path is what follows the last dot of its last name, if something precedes the
dot. It is therefore free of dots. A name that was made of a stem, a dot and a text has this text
for its extension only if the text has no dot of its own; otherwise its extension is what follows
the last dot of the text.
-/

namespace ViewCompiler

open Text

namespace Physical

variable {path extension stem last : Text} {names : List Text}

/-- The last name of a path that goes down by names. -/
theorem fileName?_ofSegments (named : ∀ name ∈ names ++ [last], IsName name) :
    fileName? (Logical.ofSegments (names ++ [last])) = some last := by
  have steps : components (Logical.ofSegments (names ++ [last])) =
      .root :: (names ++ [last]).map .name := by
    rw [Logical.ofSegments, components_slash, components_joined named]
  rw [fileName?, steps, List.map_append, List.map_singleton, ← List.cons_append,
    List.getLast?_concat]

/-- The tests of all characters tell whether an extension has a dot. -/
theorem plain_iff : (∀ char ∈ extension, (char == '.') = false) ↔ '.' ∉ extension := by
  simp only [beq_eq_false_iff_ne, ne_eq]
  exact ⟨fun free member => free '.' member rfl, fun absent char member same =>
    absent (same ▸ member)⟩

/-- The extension is what follows the last dot, and something precedes this dot. -/
theorem extension?_eq_some_iff : extension? path = some extension ↔
    '.' ∉ extension ∧ ∃ stem, stem ≠ [] ∧ fileName? path = some (stem ++ '.' :: extension) := by
  constructor
  · intro extended
    obtain ⟨name, last, parts⟩ := Option.bind_eq_some_iff.mp extended
    split at parts
    · cases parts
    · cases parts
    · rename_i front after apart cut
      obtain rfl := Option.some.inj parts
      obtain ⟨mark, selected, rfl, free⟩ := cutLast?_eq_some_iff.mp cut
      obtain rfl : mark = '.' := by simpa using selected
      exact ⟨plain_iff.mp free, front, apart, last⟩
  · rintro ⟨absent, stem, solid, last⟩
    have cut : cutLast? (· == '.') (stem ++ '.' :: extension) = some (stem, extension) :=
      cutLast?_append '.' rfl (plain_iff.mpr absent)
    obtain ⟨first, stem, rfl⟩ := List.exists_cons_of_ne_nil solid
    rw [extension?, last, Option.bind_eq_bind, Option.bind_some, cut]

/-- A path ends in a text without slashes if and only if its last name does. -/
theorem suffix_ofSegments_iff {tail : Text} (whole : '/' ∉ tail) :
    tail <:+ Logical.ofSegments (names ++ [last]) ↔ tail <:+ last := by
  rw [Logical.ofSegments_concat]
  have marked : '/' :: last <:+ names.flatMap ('/' :: ·) ++ '/' :: last := List.suffix_append _ _
  constructor
  · intro ends
    rcases List.suffix_or_suffix_of_suffix ends marked with inside | beyond
    · rcases List.suffix_cons_iff.mp inside with rfl | within
      · exact absurd List.mem_cons_self whole
      · exact within
    · exact absurd (beyond.subset List.mem_cons_self) whole
  · intro ends
    exact (ends.trans (List.suffix_cons '/' last)).trans marked

/-- A path whose last name is not hidden has an extension if and only if it ends in it, and there is
neither a dot nor a slash in it. -/
theorem extension?_iff_suffix (named : ∀ name ∈ names ++ [last], IsName name)
    (shown : last.head? ≠ some '.') :
    extension? (Logical.ofSegments (names ++ [last])) = some extension ↔
      '.' :: extension <:+ Logical.ofSegments (names ++ [last]) ∧
        '.' ∉ extension ∧ '/' ∉ extension := by
  have whole : '/' ∉ last := (named last (List.mem_append_right names List.mem_cons_self)).2.2.2
  rw [extension?_eq_some_iff, fileName?_ofSegments named]
  constructor
  · rintro ⟨dots, stem, -, same⟩
    obtain rfl := Option.some.inj same
    have slashes : '/' ∉ '.' :: extension := fun within =>
      whole (List.mem_append_right stem within)
    exact ⟨(suffix_ofSegments_iff slashes).mpr (List.suffix_append _ _), dots,
      fun within => slashes (List.mem_cons_of_mem _ within)⟩
  · rintro ⟨ends, dots, slashes⟩
    have slashes : '/' ∉ '.' :: extension := by simpa using slashes
    obtain ⟨stem, rfl⟩ := (suffix_ofSegments_iff slashes).mp ends
    refine ⟨dots, stem, ?_, rfl⟩
    rintro rfl
    exact shown rfl

/-- What follows the last dot of a text, or all of it. -/
def lastPart (text : Text) : Text := ((cutLast? (· == '.') text).map (·.2)).getD text

/-- An extension without a dot is its own last part. -/
theorem lastPart_plain (absent : '.' ∉ extension) : lastPart extension = extension := by
  rw [lastPart, cutLast?_eq_none_iff.mpr (plain_iff.mpr absent), Option.map_none, Option.getD_none]

/-- The extension of a name is the last part of what follows any of its dots. A dot that begins the
name and has no other one behind it does not count. -/
theorem extension?_stem (last : fileName? path = some (stem ++ '.' :: extension)) :
    extension? path = if stem = [] ∧ '.' ∉ extension then none else some (lastPart extension) := by
  cases cut : cutLast? (· == '.') extension with
  | none =>
    have absent : '.' ∉ extension := plain_iff.mp (cutLast?_eq_none_iff.mp cut)
    rw [lastPart_plain absent]
    by_cases bare : stem = []
    · rw [if_pos ⟨bare, absent⟩, Option.eq_none_iff_forall_ne_some]
      intro other extended
      obtain ⟨-, front, solid, same⟩ := extension?_eq_some_iff.mp extended
      rw [last, bare, List.nil_append, Option.some.injEq] at same
      -- The dot before the extension would be one of the text behind the first dot.
      obtain ⟨first, front, rfl⟩ := List.exists_cons_of_ne_nil solid
      rw [List.cons_append, List.cons.injEq] at same
      exact absent (same.2 ▸ by simp)
    · rw [if_neg fun both => bare both.1]
      exact extension?_eq_some_iff.mpr ⟨absent, stem, bare, last⟩
  | some sides =>
    obtain ⟨front, after⟩ := sides
    obtain ⟨mark, selected, rfl, free⟩ := cutLast?_eq_some_iff.mp cut
    obtain rfl : mark = '.' := by simpa using selected
    have behind : lastPart (front ++ '.' :: after) = after := by rw [lastPart, cut]; rfl
    rw [behind, if_neg (by simp)]
    refine extension?_eq_some_iff.mpr ⟨plain_iff.mp free, stem ++ '.' :: front, by simp, ?_⟩
    rw [last, List.append_assoc, List.cons_append]

end Physical

end ViewCompiler

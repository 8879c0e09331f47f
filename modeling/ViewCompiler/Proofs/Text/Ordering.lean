import Mathlib.Data.List.Sort
import ViewCompiler.Text

/-!
# Texts in strict order

A list of texts that is sorted and has no repetitions is told by its members alone. Sorting and
leaving out repetitions make such a list of any texts.
-/

namespace ViewCompiler.Text

/-- One text comes before another. -/
def Precedes (left right : Text) : Prop := atMost left right = true ∧ left ≠ right

/-- What is sorted and has no neighbouring repetitions has none at all. -/
theorem withoutRepeats_ordered {texts : List Text}
    (ordered : texts.Pairwise fun left right => atMost left right = true) :
    (withoutRepeats texts).Pairwise Precedes := by
  induction texts with
  | nil => exact .nil
  | cons first rest inductionHypothesis =>
    obtain ⟨least, further⟩ := List.pairwise_cons.mp ordered
    have kept := inductionHypothesis further
    have below : ∀ other ∈ withoutRepeats rest, atMost first other = true :=
      fun other member => least other (mem_withoutRepeats.mp member)
    unfold withoutRepeats
    cases shown : withoutRepeats rest with
    | nil => exact List.pairwise_singleton _ _
    | cons second more =>
      rw [shown] at kept below
      simp only
      split
      · exact kept
      · rename_i differs
        refine List.pairwise_cons.mpr ⟨fun other member => ⟨below other member, ?_⟩, kept⟩
        -- A later repetition would put the second text before the first.
        rintro rfl
        rcases List.mem_cons.mp member with same | later
        · exact differs same
        · have before : atMost second first = true := ((List.pairwise_cons.mp kept).1 first later).1
          exact differs (atMost_antisymm (below second List.mem_cons_self) before)

instance : Std.Antisymm Precedes where
  antisymm _ _ first second := atMost_antisymm first.1 second.1

instance : Std.Irrefl Precedes where
  irrefl _ itself := itself.2 rfl

end ViewCompiler.Text

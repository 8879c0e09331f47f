import Mathlib.Data.List.Induction
import Mathlib.Data.List.Nodup
import ViewCompiler.Text

/-!
# First occurrences

Of a list of texts, the first occurrence of each one is left. What is left is in the order in
which the texts occur first, and no text is left twice.
-/

namespace ViewCompiler

/-- One more text is a first occurrence unless it is among those before. -/
theorem eraseDups_concat (texts : List Text) (last : Text) :
    (texts ++ [last]).eraseDups =
      if last ∈ texts then texts.eraseDups else texts.eraseDups ++ [last] := by
  rw [List.eraseDups_append]
  by_cases member : last ∈ texts
  · simp [List.removeAll, member]
  · simp [List.removeAll, member, List.eraseDups_cons]

/-- What is left stands in the order in which it occurs first. -/
theorem eraseDups_ordered (texts : List Text) :
    texts.eraseDups.Pairwise fun one other => texts.idxOf one < texts.idxOf other := by
  induction texts using List.reverseRecOn with
  | nil => exact List.Pairwise.nil
  | append_singleton texts last inductionHypothesis =>
    have kept : texts.eraseDups.Pairwise fun one other =>
        (texts ++ [last]).idxOf one < (texts ++ [last]).idxOf other := by
      refine List.Pairwise.imp_of_mem (fun {one other} first second before => ?_) inductionHypothesis
      rwa [List.idxOf_append_of_mem (List.mem_eraseDups.mp first),
        List.idxOf_append_of_mem (List.mem_eraseDups.mp second)]
    rw [eraseDups_concat]
    split
    · exact kept
    · rename_i absent
      refine List.pairwise_append.mpr ⟨kept, List.pairwise_singleton _ _, ?_⟩
      intro one among other same
      obtain rfl := List.mem_singleton.mp same
      have earlier := List.mem_eraseDups.mp among
      rw [List.idxOf_append_of_mem earlier, List.idxOf_append_of_notMem absent]
      exact Nat.lt_add_right _ (List.idxOf_lt_length_of_mem earlier)

/-- No text is left twice. -/
theorem nodup_eraseDups (texts : List Text) : texts.eraseDups.Nodup :=
  (eraseDups_ordered texts).imp fun before same => absurd before (by simp [same])

end ViewCompiler

/-!
# What stands of a history

Something that happened stands as long as nothing that happens afterwards revokes it. What
stands after one more event is known from what stood before it, so a state that follows each
event can be compared with the whole history behind it.
-/

namespace ViewCompiler

variable {ε : Type} {history : List ε} {event last : ε} {revokes : ε → Prop}

/-- An event happened, and nothing that happened afterwards revoked it. -/
def Stands (history : List ε) (event : ε) (revokes : ε → Prop) : Prop :=
  ∃ earlier later, history = earlier ++ event :: later ∧ ∀ other ∈ later, ¬ revokes other

/-- Nothing stands before anything has happened. -/
theorem not_stands_nil : ¬ Stands [] event revokes := by
  rintro ⟨earlier, later, shape, -⟩
  simp at shape

/-- After one more event, it stands itself, and so does what stood before and is not revoked
by it. -/
theorem stands_concat : Stands (history ++ [last]) event revokes ↔
    last = event ∨ (Stands history event revokes ∧ ¬ revokes last) := by
  constructor
  · rintro ⟨earlier, later, shape, spared⟩
    obtain rfl | ⟨front, final, rfl⟩ := List.eq_nil_or_concat later
    · have ends : [last] = [event] := List.append_inj_right' shape rfl
      exact .inl (List.singleton_inj.mp ends)
    · rw [List.concat_eq_append, ← List.cons_append, ← List.append_assoc] at shape
      obtain ⟨same, ends⟩ := List.append_inj' shape rfl
      obtain rfl := List.singleton_inj.mp ends
      refine .inr ⟨⟨earlier, front, same, ?_⟩, spared last (by simp)⟩
      intro other member
      exact spared other (by simp [member])
  · rintro (rfl | ⟨⟨earlier, later, rfl, spared⟩, kept⟩)
    · exact ⟨history, [], rfl, by simp⟩
    · refine ⟨earlier, later ++ [last], by simp, ?_⟩
      intro other member
      cases List.mem_append.mp member with
      | inl among => exact spared other among
      | inr new => exact List.mem_singleton.mp new ▸ kept

end ViewCompiler

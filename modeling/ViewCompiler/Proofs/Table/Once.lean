import ViewCompiler.Table

/-!
# Tables with one value for each key

Putting a value does not repeat a key, and taking pairs out does not either, so a table that came
about by such steps has each key once. What can be found in it is then what stands in it.
-/

namespace ViewCompiler.Table

universe u v

variable {κ : Type u} {ν : Type v} {table : Table κ ν} {key : κ} {value : ν}

/-- Every key stands in the table once. -/
def Once (table : Table κ ν) : Prop := (table.map (·.1)).Nodup

/-- In an empty table no key stands twice. -/
theorem once_nil : Once ([] : Table κ ν) := List.nodup_nil

/-- Leaving out entries makes no key stand twice. -/
theorem Once.filter (once : table.Once) (keep : κ × ν → Bool) :
    Once (List.filter keep table) :=
  once.sublist (List.filter_sublist.map _)

variable [DecidableEq κ]

/-- The keys after an entry was put are its own one and those before. -/
theorem mem_keys_put {other : κ} :
    other ∈ (table.put key value).map (·.1) ↔ other = key ∨ other ∈ table.map (·.1) := by
  induction table with
  | nil => simp [put]
  | cons pair rest inductionHypothesis =>
    rw [put]
    split
    · rename_i same
      simp [same]
    · rw [List.map_cons, List.mem_cons, inductionHypothesis, List.map_cons, List.mem_cons]
      exact or_left_comm

/-- A key takes the place that it has, or a new one at the end. -/
theorem Once.put (once : table.Once) (key : κ) (value : ν) : (table.put key value).Once := by
  induction table with
  | nil => exact List.pairwise_singleton _ key
  | cons pair rest inductionHypothesis =>
    obtain ⟨fresh, further⟩ := List.nodup_cons.mp once
    unfold Table.put
    split
    · rename_i same
      exact List.nodup_cons.mpr ⟨same ▸ fresh, further⟩
    · rename_i differs
      refine List.nodup_cons.mpr ⟨?_, inductionHypothesis further⟩
      rw [mem_keys_put]
      exact not_or.mpr ⟨differs, fresh⟩

/-- What is found is what stands there. -/
theorem Once.find?_eq_some_iff (once : table.Once) :
    table.find? key = some value ↔ (key, value) ∈ table := by
  refine ⟨mem_of_find?, ?_⟩
  intro member
  induction table with
  | nil => cases member
  | cons pair rest inductionHypothesis =>
    obtain ⟨fresh, further⟩ := List.nodup_cons.mp once
    rcases List.mem_cons.mp member with rfl | later
    · exact if_pos rfl
    · have differs : pair.1 ≠ key := by
        rintro rfl
        exact fresh (List.mem_map.mpr ⟨_, later, rfl⟩)
      rw [find?, if_neg differs]
      exact inductionHypothesis further later

end ViewCompiler.Table

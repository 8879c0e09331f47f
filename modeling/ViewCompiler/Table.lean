/-!
# Tables

Finite maps as lists of pairs. A key is put where it stood before, or at the end, so a
table lists its keys in the order in which they came. Each operation is pinned down by
what can be found afterwards.
-/

namespace ViewCompiler

universe u v

/-- Values by key. -/
abbrev Table (κ : Type u) (ν : Type v) := List (κ × ν)

namespace Table

variable {κ : Type u} {ν : Type v} [DecidableEq κ]

/-- The value of a key. -/
def find? (key : κ) : Table κ ν → Option ν
  | [] => none
  | (other, value) :: rest => if other = key then some value else find? key rest

/-- The table with one more value, or another value, for a key. -/
def put (key : κ) (value : ν) : Table κ ν → Table κ ν
  | [] => [(key, value)]
  | (other, kept) :: rest =>
    if other = key then (key, value) :: rest else (other, kept) :: put key value rest

/-- The table without a key. -/
def drop (key : κ) : Table κ ν → Table κ ν
  | [] => []
  | (other, value) :: rest => if other = key then drop key rest else (other, value) :: drop key rest

/-- An entry that is put is found. -/
@[simp] theorem find?_put_self (key : κ) (value : ν) (table : Table κ ν) :
    (table.put key value).find? key = some value := by
  induction table with
  | nil => simp [put, find?]
  | cons pair rest inductionHypothesis =>
    by_cases same : pair.1 = key <;> simp [put, find?, same, inductionHypothesis]

/-- Other entries are found as before. -/
theorem find?_put_of_ne {key other : κ} (differs : other ≠ key) (value : ν) (table : Table κ ν) :
    (table.put key value).find? other = table.find? other := by
  induction table with
  | nil => simp [put, find?, Ne.symm differs]
  | cons pair rest inductionHypothesis =>
    by_cases same : pair.1 = key
    · simp [put, find?, same, Ne.symm differs]
    · simp only [put, same, ↓reduceIte, find?]
      rw [inductionHypothesis]

/-- An entry that is dropped is not found. -/
@[simp] theorem find?_drop_self (key : κ) (table : Table κ ν) : (table.drop key).find? key = none := by
  induction table with
  | nil => rfl
  | cons pair rest inductionHypothesis =>
    by_cases same : pair.1 = key <;> simp [drop, find?, same, inductionHypothesis]

/-- When an entry is dropped, the others are found as before. -/
theorem find?_drop_of_ne {key other : κ} (differs : other ≠ key) (table : Table κ ν) :
    (table.drop key).find? other = table.find? other := by
  induction table with
  | nil => rfl
  | cons pair rest inductionHypothesis =>
    by_cases same : pair.1 = key
    · simp [drop, find?, same, Ne.symm differs, inductionHypothesis]
    · simp only [drop, same, ↓reduceIte, find?]
      rw [inductionHypothesis]

/-- The value of a key stands in the table. -/
theorem mem_of_find? {key : κ} {value : ν} {table : Table κ ν}
    (found : table.find? key = some value) : (key, value) ∈ table := by
  induction table with
  | nil => cases found
  | cons pair rest inductionHypothesis =>
    by_cases same : pair.1 = key
    · rw [find?, if_pos same, Option.some.injEq] at found
      rw [← same, ← found]
      exact List.mem_cons_self
    · rw [find?, if_neg same] at found
      exact List.mem_cons_of_mem _ (inductionHypothesis found)

/-- A key that stands in the table has a value. -/
theorem exists_find?_of_mem {key : κ} {value : ν} {table : Table κ ν}
    (member : (key, value) ∈ table) : ∃ found, table.find? key = some found := by
  induction table with
  | nil => cases member
  | cons pair rest inductionHypothesis =>
    by_cases same : pair.1 = key
    · exact ⟨pair.2, by rw [find?, if_pos same]⟩
    · have further : (key, value) ∈ rest :=
        (List.mem_cons.mp member).resolve_left fun own => same (congrArg Prod.fst own).symm
      rw [find?, if_neg same]
      exact inductionHypothesis further

/-- What can be found in a table of which only some keys are kept. -/
theorem find?_filter (keep : κ → Bool) (key : κ) (table : Table κ ν) :
    Table.find? key (table.filter fun pair => keep pair.1) =
      if keep key then table.find? key else none := by
  induction table with
  | nil => simp [find?]
  | cons pair rest inductionHypothesis =>
    by_cases same : pair.1 = key
    · by_cases kept : keep key = true
      · simp [find?, same, kept]
      · simp only [List.filter_cons, same, kept]
        simpa [kept] using inductionHypothesis
    · by_cases kept : keep pair.1 = true
      · simp [find?, same, kept, inductionHypothesis]
      · simp [find?, same, kept, inductionHypothesis]

end Table

end ViewCompiler

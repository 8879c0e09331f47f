import Mathlib.Data.List.Nodup
import ViewCompiler.Dependents

/-!
# The two sides of a dependency graph

The two tables of a dependency graph mirror each other: a template stands in the row of a file
exactly if the file stands among the dependencies of the template, and it stands there once.
Entering a template in rows, striking it from rows and recording it anew are each pinned down
by who stands in which row afterwards, so nothing here depends on the order of rows or on
rows that got empty.
-/

namespace ViewCompiler.Dependents

/-- The templates in the row of a file; none if there is no row. -/
def row (reverse : Table Text (List Text)) (file : Text) : List Text := (reverse.find? file).getD []

/-- What is recorded of a template; nothing if it is not recorded. -/
def files (graph : Dependents) (template : Text) : List Text :=
  (graph.forward.find? template).getD []

variable {graph : Dependents} {reverse : Table Text (List Text)} {template other file path : Text}
  {paths : List Text}

/-- Putting a row changes that of its file and no other. -/
theorem row_put (file : Text) (templates : List Text) (reverse : Table Text (List Text))
    (other : Text) :
    row (reverse.put file templates) other =
      if other = file then templates else row reverse other := by
  unfold row
  split
  · rename_i same
    rw [same, Table.find?_put_self, Option.getD_some]
  · rename_i differs
    rw [Table.find?_put_of_ne differs]

/-- Dropping a row empties that of its file and no other. -/
theorem row_drop (file : Text) (reverse : Table Text (List Text)) (other : Text) :
    row (reverse.drop file) other = if other = file then [] else row reverse other := by
  unfold row
  split
  · rename_i same
    rw [same, Table.find?_drop_self, Option.getD_none]
  · rename_i differs
    rw [Table.find?_drop_of_ne differs]

/-- A row gets a template at its end, unless it has it. -/
theorem row_enter (template : Text) (reverse : Table Text (List Text)) (file other : Text) :
    row (enter template reverse file) other =
      if other = file ∧ template ∉ row reverse file then row reverse file ++ [template]
      else row reverse other := by
  unfold enter
  cases stands : reverse.find? file with
  | none =>
    have empty : row reverse file = [] := by rw [row, stands, Option.getD_none]
    simp only [row_put, empty, List.not_mem_nil, not_false_iff, and_true, List.nil_append]
  | some templates =>
    have whole : row reverse file = templates := by rw [row, stands, Option.getD_some]
    by_cases member : template ∈ templates
    · simp only [whole, member, ↓reduceIte, not_true, and_false]
    · simp only [whole, member, ↓reduceIte, row_put, not_false_iff, and_true]

/-- A row loses a template. -/
theorem row_strike (template : Text) (reverse : Table Text (List Text)) (file other : Text) :
    row (strike template reverse file) other =
      if other = file then (row reverse file).filter (· ≠ template) else row reverse other := by
  unfold strike
  cases stands : reverse.find? file with
  | none =>
    by_cases same : other = file
    · simp only [same, row, stands, Option.getD_none, List.filter_nil, ↓reduceIte]
    · simp only [same, ↓reduceIte]
  | some templates =>
    have whole : row reverse file = templates := by rw [row, stands, Option.getD_some]
    cases kept : templates.filter (· ≠ template) with
    | nil => simp only [row_drop, whole, kept]
    | cons first others => simp only [row_put, whole, kept]

/-- Entering a template adds it to the row of the file and changes nothing else. -/
theorem mem_row_enter : other ∈ row (enter template reverse file) path ↔
    other ∈ row reverse path ∨ (other = template ∧ path = file) := by
  rw [row_enter]
  by_cases same : path = file
  · subst same
    by_cases member : template ∈ row reverse path
    · simp only [member, not_true, and_false, ↓reduceIte, and_true]
      constructor
      · exact .inl
      · rintro (stands | rfl)
        · exact stands
        · exact member
    · simp [member]
  · simp [same]

/-- Striking a template takes it from the row of the file and changes nothing else. -/
theorem mem_row_strike : other ∈ row (strike template reverse file) path ↔
    other ∈ row reverse path ∧ ¬ (other = template ∧ path = file) := by
  rw [row_strike]
  by_cases same : path = file
  · subst same
    simp
  · simp [same]

/-- A template is entered in the rows of files. -/
theorem mem_row_enterAll : other ∈ row (paths.foldl (enter template) reverse) file ↔
    other ∈ row reverse file ∨ (other = template ∧ file ∈ paths) := by
  induction paths generalizing reverse with
  | nil => simp
  | cons path paths inductionHypothesis =>
    rw [List.foldl_cons, inductionHypothesis, mem_row_enter, List.mem_cons]
    constructor
    · rintro ((stands | ⟨own, here⟩) | ⟨own, further⟩)
      · exact .inl stands
      · exact .inr ⟨own, .inl here⟩
      · exact .inr ⟨own, .inr further⟩
    · rintro (stands | ⟨own, here | further⟩)
      · exact .inl (.inl stands)
      · exact .inl (.inr ⟨own, here⟩)
      · exact .inr ⟨own, further⟩

/-- A template is struck from the rows of files. -/
theorem mem_row_strikeAll : other ∈ row (paths.foldl (strike template) reverse) file ↔
    other ∈ row reverse file ∧ ¬ (other = template ∧ file ∈ paths) := by
  induction paths generalizing reverse with
  | nil => simp
  | cons path paths inductionHypothesis =>
    rw [List.foldl_cons, inductionHypothesis, mem_row_strike, List.mem_cons]
    constructor
    · rintro ⟨⟨stands, here⟩, further⟩
      refine ⟨stands, ?_⟩
      rintro ⟨own, same | among⟩
      · exact here ⟨own, same⟩
      · exact further ⟨own, among⟩
    · rintro ⟨stands, absent⟩
      refine ⟨⟨stands, ?_⟩, ?_⟩
      · rintro ⟨own, same⟩
        exact absent ⟨own, .inl same⟩
      · rintro ⟨own, among⟩
        exact absent ⟨own, .inr among⟩

/-- No row has a template twice. -/
def Single (reverse : Table Text (List Text)) : Prop := ∀ file, (row reverse file).Nodup

/-- Entering a template makes no row name one twice. -/
theorem Single.enter (single : Single reverse) (template file : Text) :
    Single (enter template reverse file) := by
  intro other
  rw [row_enter]
  split
  · rename_i fresh
    rw [List.nodup_append_comm, List.singleton_append]
    exact List.Nodup.cons fresh.2 (single file)
  · exact single other

/-- Striking a template does not either. -/
theorem Single.strike (single : Single reverse) (template file : Text) :
    Single (strike template reverse file) := by
  intro other
  rw [row_strike]
  split
  · exact (single file).filter _
  · exact single other

/-- The two sides of a graph mirror each other. -/
structure Mirrored (graph : Dependents) : Prop where
  agree : ∀ template file, template ∈ row graph.reverse file ↔ file ∈ graph.files template
  single : Single graph.reverse

/-- The sides of an empty graph mirror each other. -/
theorem mirrored_empty : Mirrored {} := by
  constructor
  · intro template file
    exact iff_of_false List.not_mem_nil List.not_mem_nil
  · intro file
    exact List.nodup_nil

/-- What is recorded of a template that was forgotten, and of every other. -/
theorem files_remove (graph : Dependents) (template other : Text) :
    (graph.remove template).files other = if other = template then [] else graph.files other := by
  unfold remove
  cases stands : graph.forward.find? template with
  | none =>
    by_cases same : other = template
    · simp only [files, same, stands, Option.getD_none, ↓reduceIte]
    · simp only [same, ↓reduceIte]
  | some recorded => exact row_drop template graph.forward other

/-- A template that is forgotten stands in no row. -/
theorem Mirrored.remove (mirrored : Mirrored graph) (template : Text) :
    Mirrored (graph.remove template) := by
  constructor
  · intro other file
    rw [files_remove]
    unfold Dependents.remove
    cases stands : graph.forward.find? template with
    | none =>
      by_cases same : other = template
      · have none : graph.files template = [] := by rw [files, stands, Option.getD_none]
        rw [if_pos same, same, mirrored.agree, none]
      · rw [if_neg same, mirrored.agree]
    | some recorded =>
      have own : graph.files template = recorded := by rw [files, stands, Option.getD_some]
      rw [mem_row_strikeAll, mirrored.agree]
      by_cases same : other = template
      · simp [same, own]
      · simp [same]
  · unfold Dependents.remove
    cases graph.forward.find? template with
    | none => exact mirrored.single
    | some recorded =>
      exact List.foldlRecOn recorded (strike template) mirrored.single
        fun _ single file _ => single.strike template file

/-- What is recorded of a template, and of every other one. -/
theorem files_record (graph : Dependents) (template other : Text) (paths : List Text) :
    (graph.record template paths).files other =
      if other = template then distinct (paths.filter (· ≠ template)) else graph.files other := by
  have forward : (graph.record template paths).forward =
    (graph.remove template).forward.put template (distinct (paths.filter (· ≠ template))) := rfl
  rw [files, forward]
  by_cases same : other = template
  · rw [if_pos same, same, Table.find?_put_self, Option.getD_some]
  · rw [if_neg same, Table.find?_put_of_ne same, ← files, files_remove, if_neg same]

/-- Recording a template adds it to those that are recorded. -/
theorem contains_record (graph : Dependents) (template other : Text) (paths : List Text) :
    (graph.record template paths).contains other =
      (decide (other = template) || graph.contains other) := by
  have forward : (graph.record template paths).forward =
    (graph.remove template).forward.put template (distinct (paths.filter (· ≠ template))) := rfl
  unfold contains
  rw [forward]
  by_cases same : other = template
  · rw [same, Table.find?_put_self, Option.isSome_some, decide_eq_true rfl, Bool.true_or]
  · rw [Table.find?_put_of_ne same, decide_eq_false same, Bool.false_or]
    unfold remove
    cases graph.forward.find? template with
    | none => rfl
    | some recorded => rw [Table.find?_drop_of_ne same]

/-- Recording a template keeps the two sides in step. -/
theorem Mirrored.record (mirrored : Mirrored graph) (template : Text) (paths : List Text) :
    Mirrored (graph.record template paths) := by
  have removed := mirrored.remove template
  constructor
  · intro other file
    rw [files_record]
    unfold Dependents.record
    rw [mem_row_enterAll, removed.agree, files_remove]
    by_cases same : other = template
    · simp [same]
    · simp [same]
  · exact List.foldlRecOn _ (enter template) removed.single
      fun _ single file _ => single.enter template file

/-- The members of a list are kept when repetitions are dropped. -/
@[simp] theorem mem_distinct {text : Text} {texts : List Text} :
    text ∈ distinct texts ↔ text ∈ texts := by
  induction texts with
  | nil => rfl
  | cons first texts inductionHypothesis =>
    unfold distinct
    split
    · rename_i later
      rw [inductionHypothesis, List.mem_cons]
      constructor
      · exact .inr
      · rintro (rfl | among)
        · exact later
        · exact among
    · rw [List.mem_cons, List.mem_cons, inductionHypothesis]

end ViewCompiler.Dependents

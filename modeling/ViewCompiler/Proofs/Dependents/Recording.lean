import Mathlib.Data.List.Induction
import ViewCompiler.Proofs.Dependents.Mirror
import ViewCompiler.Proofs.History

/-!
# A dependency graph follows what is recorded

Templates are recorded, recorded anew and removed in any order. Of all this the graph keeps
what the last call for each template said: a template is contained if that call recorded it,
and it is used by exactly the other files that this call listed. A file that no template
depends on has no row, so that nobody meets an empty one.
-/

namespace ViewCompiler.Dependents

/-- What a graph is told. -/
inductive Call
  | record (template : Text) (files : List Text)
  | remove (template : Text)
deriving DecidableEq, Repr

/-- The template that a call is for. -/
def Call.template : Call → Text
  | .record template _ => template
  | .remove template => template

/-- The graph after a call. -/
def call (graph : Dependents) : Call → Dependents
  | .record template files => graph.record template files
  | .remove template => graph.remove template

/-- The graph after calls, made in order. -/
def run (graph : Dependents) (calls : List Call) : Dependents := calls.foldl call graph

/-- The last call for a template recorded it with these files. -/
def LastRecorded (calls : List Call) (template : Text) (files : List Text) : Prop :=
  Stands calls (.record template files) (·.template = template)

/-- A template depends on a file: the file is another one, and the last call for the template
listed it. -/
def DependsOn (calls : List Call) (template file : Text) : Prop :=
  file ≠ template ∧ ∃ files, LastRecorded calls template files ∧ file ∈ files

variable {graph : Dependents} {reverse : Table Text (List Text)} {template file : Text}
  {calls : List Call}

/-- Who stands in a row stands in a list that is found. -/
theorem mem_row_iff : template ∈ row reverse file ↔
    ∃ templates, reverse.find? file = some templates ∧ template ∈ templates := by
  cases stands : reverse.find? file <;> simp [row, stands]

/-! ## No row is empty -/

/-- Every file that has a row has a template in it. -/
def Peopled (reverse : Table Text (List Text)) : Prop := ∀ file, reverse.find? file ≠ some []

/-- A table without rows has no empty row. -/
theorem peopled_nil : Peopled [] := by
  intro file found
  cases found

/-- If no row is empty, the row of a file is empty exactly if it has none. -/
theorem Peopled.row_eq_nil_iff (peopled : Peopled reverse) :
    row reverse file = [] ↔ reverse.find? file = none := by
  cases stands : reverse.find? file with
  | none => simp [row, stands]
  | some templates =>
    have someone : templates ≠ [] := fun empty => peopled file (empty ▸ stands)
    simp [row, stands, someone]

/-- Putting a row with templates in it leaves no row empty. -/
theorem Peopled.put (peopled : Peopled reverse) (file : Text) {templates : List Text}
    (someone : templates ≠ []) : Peopled (reverse.put file templates) := by
  intro other
  by_cases same : other = file
  · rw [same, Table.find?_put_self]
    exact fun empty => someone (Option.some.inj empty)
  · rw [Table.find?_put_of_ne same]
    exact peopled other

/-- Entering a template leaves no row empty. -/
theorem Peopled.enter (peopled : Peopled reverse) (template file : Text) :
    Peopled (enter template reverse file) := by
  unfold Dependents.enter
  cases reverse.find? file with
  | none => exact peopled.put file (List.cons_ne_nil template [])
  | some templates =>
    dsimp only
    split
    · exact peopled
    · exact peopled.put file (List.append_ne_nil_of_right_ne_nil _ (List.cons_ne_nil template []))

/-- Striking a template leaves no row empty, since an empty row is dropped. -/
theorem Peopled.strike (peopled : Peopled reverse) (template file : Text) :
    Peopled (strike template reverse file) := by
  unfold Dependents.strike
  cases reverse.find? file with
  | none => exact peopled
  | some templates =>
    dsimp only
    split
    · intro other
      by_cases same : other = file
      · rw [same, Table.find?_drop_self]
        exact nofun
      · rw [Table.find?_drop_of_ne same]
        exact peopled other
    · rename_i someone
      exact peopled.put file someone

/-- So does removing a template from the graph. -/
theorem Peopled.remove (peopled : Peopled graph.reverse) (template : Text) :
    Peopled (graph.remove template).reverse := by
  unfold Dependents.remove
  cases graph.forward.find? template with
  | none => exact peopled
  | some recorded =>
    exact List.foldlRecOn recorded (Dependents.strike template) peopled
      fun _ peopled file _ => peopled.strike template file

/-- So does every call. -/
theorem Peopled.call (peopled : Peopled graph.reverse) (call : Call) :
    Peopled (graph.call call).reverse := by
  cases call with
  | remove template => exact peopled.remove template
  | record template files =>
    exact List.foldlRecOn _ (Dependents.enter template) (peopled.remove template)
      fun _ peopled file _ => peopled.enter template file

/-! ## What the graph keeps -/

/-- Every call keeps the two sides mirroring each other. -/
theorem Mirrored.call (mirrored : Mirrored graph) (call : Call) : Mirrored (graph.call call) := by
  cases call with
  | record template files => exact mirrored.record template files
  | remove template => exact mirrored.remove template

/-- Forgetting a template forgets no other one. -/
theorem contains_remove (graph : Dependents) (template other : Text) :
    (graph.remove template).contains other =
      (graph.contains other && decide (other ≠ template)) := by
  unfold remove contains
  cases stands : graph.forward.find? template with
  | none =>
    by_cases same : other = template
    · simp [same, stands]
    · simp [same]
  | some recorded =>
    by_cases same : other = template
    · simp [same]
    · simp [same, Table.find?_drop_of_ne same]

/-- After a call, a template is contained if the call recorded it, or if it was contained and
the call is for another one. -/
theorem contains_call (call : Call) : (graph.call call).contains template = true ↔
    (∃ files, call = .record template files) ∨
      (graph.contains template = true ∧ call.template ≠ template) := by
  cases call with
  | record other files =>
    rw [Dependents.call, contains_record, Bool.or_eq_true, decide_eq_true_iff, Call.template]
    by_cases same : template = other
    · simp [same]
    · simp [same, Ne.symm same]
  | remove other =>
    rw [Dependents.call, contains_remove, Bool.and_eq_true, decide_eq_true_iff, Call.template,
      ne_comm]
    simp

/-- After a call, the files of a template are those that the call listed, without the template
itself, or those of before if the call is for another one. -/
theorem mem_files_call (call : Call) : file ∈ (graph.call call).files template ↔
    (file ≠ template ∧ ∃ files, call = .record template files ∧ file ∈ files) ∨
      (file ∈ graph.files template ∧ call.template ≠ template) := by
  cases call with
  | record other files =>
    rw [Dependents.call, files_record, Call.template]
    by_cases same : template = other
    · simp [same, and_comm]
    · simp [same, Ne.symm same]
  | remove other =>
    rw [Dependents.call, files_remove, Call.template]
    by_cases same : template = other
    · simp [same]
    · simp [same, Ne.symm same]

/-- The graph after a run is the one before the last call after that call. -/
theorem run_concat (graph : Dependents) (calls : List Call) (last : Call) :
    graph.run (calls ++ [last]) = (graph.run calls).call last := List.foldl_concat ..

/-- A graph contains the templates whose last call was a recording. -/
theorem contains_run (calls : List Call) : (run {} calls).contains template = true ↔
    ∃ files, LastRecorded calls template files := by
  induction calls using List.reverseRecOn with
  | nil => exact iff_of_false Bool.false_ne_true fun ⟨_, stands⟩ => not_stands_nil stands
  | append_singleton calls call inductionHypothesis =>
    simp only [run_concat, contains_call, inductionHypothesis, LastRecorded, stands_concat,
      exists_or, exists_and_right]

/-- The files of a template are those on which it depends by its last call. -/
theorem mem_files_run (calls : List Call) : file ∈ (run {} calls).files template ↔
    DependsOn calls template file := by
  induction calls using List.reverseRecOn with
  | nil => exact iff_of_false List.not_mem_nil fun ⟨_, _, stands, _⟩ => not_stands_nil stands
  | append_singleton calls call inductionHypothesis =>
    rw [run_concat, mem_files_call, inductionHypothesis]
    simp only [DependsOn, LastRecorded, stands_concat]
    grind

/-- After any calls the two sides mirror each other. -/
theorem run_mirrored (calls : List Call) : Mirrored (run {} calls) :=
  List.foldlRecOn calls call mirrored_empty fun _ mirrored call _ => mirrored.call call

/-- After any calls no row is empty. -/
theorem run_peopled (calls : List Call) : Peopled (run {} calls).reverse :=
  List.foldlRecOn (motive := fun graph => Peopled graph.reverse) calls call peopled_nil
    fun _ peopled call _ => peopled.call call

/-- A template stands in the row of a file exactly if it depends on the file by its last call. -/
theorem mem_row_run (calls : List Call) : template ∈ row (run {} calls).reverse file ↔
    DependsOn calls template file := by
  rw [(run_mirrored calls).agree, mem_files_run]

/-- Whatever was recorded and removed: a graph contains exactly the templates whose last call
recorded them; the templates that use a file are, each once, exactly those that depend on it by
their last calls, and there is no such set if there is no such template; the two tables mirror
each other; and no template stands in its own row. -/
theorem recording_exact (calls : List Call) :
    let graph := run {} calls
    (∀ template, graph.contains template = true ↔ ∃ files, LastRecorded calls template files) ∧
    (∀ file, graph.usedBy file = none ↔ ∀ template, ¬ DependsOn calls template file) ∧
    (∀ file templates, graph.usedBy file = some templates →
      templates ≠ [] ∧ templates.Nodup ∧
        ∀ template, template ∈ templates ↔ DependsOn calls template file) ∧
    (∀ template file, (∃ templates, graph.usedBy file = some templates ∧ template ∈ templates) ↔
      ∃ files, graph.forward.find? template = some files ∧ file ∈ files) ∧
    ∀ template files, graph.forward.find? template = some files → template ∉ files := by
  intro graph
  refine ⟨fun template => contains_run calls, ?_, ?_, ?_, ?_⟩
  · intro file
    rw [usedBy, ← (run_peopled calls).row_eq_nil_iff, List.eq_nil_iff_forall_not_mem]
    exact forall_congr' fun template => not_congr (mem_row_run calls)
  · intro file templates used
    have whole : row graph.reverse file = templates := by
      rw [row, ← usedBy, used, Option.getD_some]
    refine ⟨?_, whole ▸ (run_mirrored calls).single file, ?_⟩
    · rintro rfl
      exact run_peopled calls file used
    · intro template
      rw [← whole]
      exact mem_row_run calls
  · intro template file
    rw [usedBy, ← mem_row_iff, ← mem_row_iff, (run_mirrored calls).agree]
    rfl
  · intro template files recorded member
    have own : template ∈ graph.files template := mem_row_iff.mpr ⟨files, recorded, member⟩
    exact ((mem_files_run calls).mp own).1 rfl

/-- A template that is recorded anew does not use any longer what it used before, and it never
uses itself. -/
theorem recording_exact_anew :
    let home : Text := "/home"
    let about : Text := "/about"
    let imports : Text := "/imports"
    let layout : Text := "/layout"
    let calls : List Call :=
      [.record home [home, imports], .record about [imports], .record home [home, layout]]
    (run {} calls).usedBy imports = some [about] ∧
      (∀ template, template ∈ [about] ↔ DependsOn calls template imports) ∧
      (run {} calls).forward.find? home = some [layout] ∧ home ∉ [layout] := by
  intro home about imports layout calls
  obtain ⟨-, -, used, -, apart⟩ := recording_exact calls
  have others : (run {} calls).usedBy imports = some [about] := by decide +kernel
  have recorded : (run {} calls).forward.find? home = some [layout] := by decide +kernel
  exact ⟨others, (used _ _ others).2.2, recorded, apart _ _ recorded⟩

end ViewCompiler.Dependents

import ViewCompiler.Compilation
import ViewCompiler.Proofs.Inquiry.Within
import ViewCompiler.Proofs.Text.Occurrence

/-!
# Grouping by file loses and reorders nothing

Faults are entered one after the other, each behind the earlier ones of its file. What comes
out does not depend on how they were entered: the files in the order in which they occur first
among the faults, each once, and for each file its faults in their own order. A fault without a
file counts as one of the template. The messages of all failures are then those of all faults,
in another order at most.
-/

namespace ViewCompiler

open Inquiry Text

namespace Failure

variable {α : Type} {fileOf : α → Text}

/-- Entering a fault changes the group of its file, which is the last one if it is new. -/
theorem enter_map (file : Text) (fault : α) (groupOf : Text → List α) {files : List Text}
    (apart : files.Nodup) :
    enter file fault (files.map fun other => (other, groupOf other)) =
      if file ∈ files then
        files.map fun other => (other, if file = other then groupOf other ++ [fault] else groupOf other)
      else (files.map fun other => (other, groupOf other)) ++ [(file, [fault])] := by
  induction files with
  | nil => rfl
  | cons first files inductionHypothesis =>
    obtain ⟨fresh, apart⟩ := List.nodup_cons.mp apart
    rw [List.map_cons, enter]
    by_cases own : first = file
    · subst own
      have others : files.map (fun other => (other, groupOf other)) =
          files.map fun other =>
            (other, if first = other then groupOf other ++ [fault] else groupOf other) := by
        apply List.map_congr_left
        intro other member
        have differs : first ≠ other := fun same => fresh (same ▸ member)
        rw [if_neg differs]
      simp [← others]
    · rw [if_neg own, inductionHypothesis apart]
      have differs : file ≠ first := fun same => own same.symm
      by_cases member : file ∈ files
      · simp [member, differs]
      · simp [member, differs]

/-- The last fault is entered when the others are grouped. -/
theorem grouped_concat (fileOf : α → Text) (faults : List α) (last : α) :
    grouped fileOf (faults ++ [last]) = enter (fileOf last) last (grouped fileOf faults) := by
  simp [grouped]

/-- The groups are those of the files of the faults, each with the faults of its file. -/
theorem grouped_eq (fileOf : α → Text) (faults : List α) :
    grouped fileOf faults = (faults.map fileOf).eraseDups.map fun file =>
      (file, faults.filter fun fault => fileOf fault = file) := by
  induction faults using List.reverseRecOn with
  | nil => rfl
  | append_singleton faults last inductionHypothesis =>
    rw [grouped_concat, inductionHypothesis, enter_map _ _ _ (nodup_eraseDups _), List.map_append,
      List.map_singleton, eraseDups_concat]
    by_cases known : fileOf last ∈ faults.map fileOf
    · rw [if_pos (List.mem_eraseDups.mpr known), if_pos known]
      apply List.map_congr_left
      intro file _
      by_cases own : fileOf last = file <;> simp [own]
    · have none_ : faults.filter (fun fault => fileOf fault = fileOf last) = [] := by
        rw [List.filter_eq_nil_iff]
        intro fault member same
        exact known (List.mem_map.mpr ⟨fault, member, of_decide_eq_true same⟩)
      rw [if_neg (mt List.mem_eraseDups.mp known), if_neg known, List.map_append,
        List.map_singleton]
      congr 1
      · apply List.map_congr_left
        intro file member
        have own : fileOf last ≠ file := fun same => known (same ▸ List.mem_eraseDups.mp member)
        simp [own]
      · simp [none_]

/-- A fault without a file joins those of the template, and the case of letters counts. -/
example : (grouped (fun fault : Option Text × Nat => fault.1.getD "/a")
    [(some "/b", 1), (none, 2), (some "/B", 3), (some "/b", 4), (some "/a", 5)]).map
      (fun group => (group.1.string, group.2.map (·.2))) =
    [("/b", [1, 4]), ("/a", [2, 5]), ("/B", [3])] := by
  decide

/-- A group holds the faults of its file, in their order. -/
theorem grouped_own {faults : List α} {group : Text × List α}
    (member : group ∈ grouped fileOf faults) :
    group.2 = faults.filter fun fault => fileOf fault = group.1 := by
  rw [grouped_eq] at member
  obtain ⟨file, -, rfl⟩ := List.mem_map.mp member
  rfl

/-- Entering a fault adds it to the faults of all groups. -/
theorem enter_perm (file : Text) (fault : α) (groups : List (Text × List α)) :
    ((enter file fault groups).flatMap (·.2)).Perm (groups.flatMap (·.2) ++ [fault]) := by
  induction groups with
  | nil => exact List.Perm.refl _
  | cons first groups inductionHypothesis =>
    unfold enter
    split
    · simp only [List.flatMap_cons, List.append_assoc]
      exact List.Perm.append_left _ List.perm_append_comm
    · simp only [List.flatMap_cons, List.append_assoc]
      exact List.Perm.append_left _ inductionHypothesis

/-- The groups hold the faults, each as often as it was found. -/
theorem grouped_perm (fileOf : α → Text) (faults : List α) :
    ((grouped fileOf faults).flatMap (·.2)).Perm faults := by
  induction faults using List.reverseRecOn with
  | nil => exact List.Perm.refl _
  | append_singleton faults last inductionHypothesis =>
    rw [grouped_concat]
    exact (enter_perm _ _ _).trans (inductionHypothesis.append_right _)

/-- Failures that show faults by file. -/
structure ShowsByFile (fileOf : α → Text) (report : α → Text → Message) (faults : List α)
    (failures : List Failure) : Prop where
  /-- There is one failure for each file that has a fault. -/
  files : failures.map (·.file) = (faults.map fileOf).eraseDups
  distinct : (failures.map (·.file)).Nodup
  /-- A file comes before another if its first fault does. -/
  ordered : (failures.map (·.file)).Pairwise fun one other =>
    (faults.map fileOf).idxOf one < (faults.map fileOf).idxOf other
  /-- The faults of a file are reported in their order, and no others are. -/
  reported : ∀ failure ∈ failures, failure.messages =
    (faults.filter fun fault => fileOf fault = failure.file).map (report · failure.file)
  /-- Every fault is reported as often as it was found. -/
  complete : (failures.flatMap (·.messages)).Perm (faults.map fun fault => report fault (fileOf fault))
  named : ∀ failure ∈ failures, ∀ message ∈ failure.messages, message.file = failure.file

variable {P Token : Type} [Project P Token]

/-- Failures that are made of the groups of faults, whatever else they show, show them by file. -/
theorem grouped_shows {report : α → Text → Message} {shown : Option Text → Text × List α → Failure}
    (shape : ∀ content group, (shown content group).file = group.1 ∧
      (shown content group).messages = group.2.map (report · group.1))
    (names : ∀ fault file, (report fault file).file = file) (project : P) (faults : List α) :
    ShowsByFile fileOf report faults ((each
      (fun group => (contentOf group.1).andThen fun content => .answer (shown content group))
      (grouped fileOf faults)).run project) := by
  let failureOf (group : Text × List α) : Failure :=
    shown ((contentOf group.1).run project) group
  have file (group : Text × List α) : (failureOf group).file = group.1 := (shape _ group).1
  have messages (group : Text × List α) :
      (failureOf group).messages = group.2.map (report · group.1) := (shape _ group).2
  have made : (each
      (fun group => (contentOf group.1).andThen fun content => .answer (shown content group))
      (grouped fileOf faults)).run project = (grouped fileOf faults).map failureOf := by
    rw [run_each]
    apply List.map_congr_left
    intro group _
    rw [run_andThen]
    rfl
  have files : ((grouped fileOf faults).map failureOf).map (·.file) =
      (faults.map fileOf).eraseDups := by
    simp [grouped_eq, file, Function.comp_def]
  rw [made]
  refine ⟨files, files ▸ nodup_eraseDups _, files ▸ eraseDups_ordered _, ?_, ?_, ?_⟩
  · intro failure member
    obtain ⟨group, among, rfl⟩ := List.mem_map.mp member
    rw [messages, file, grouped_own among]
  · have own : ((grouped fileOf faults).map failureOf).flatMap (·.messages) =
        ((grouped fileOf faults).flatMap (·.2)).map fun fault => report fault (fileOf fault) := by
      rw [List.flatMap_map, List.map_flatMap]
      apply List.flatMap_congr
      intro group among
      rw [messages]
      apply List.map_congr_left
      intro fault inside
      rw [grouped_own among] at inside
      rw [of_decide_eq_true (List.mem_filter.mp inside).2]
    rw [own]
    exact (grouped_perm fileOf faults).map _
  · intro failure member message inside
    obtain ⟨group, -, rfl⟩ := List.mem_map.mp member
    rw [messages] at inside
    obtain ⟨fault, -, rfl⟩ := List.mem_map.mp inside
    rw [names, file]

end Failure

end ViewCompiler

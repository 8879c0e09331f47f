import Mathlib.Data.List.Forall2
import ViewCompiler.Manifest

/-!
# What is heard of a page class

Reading a page class line by line is hearing a sequence of declarations. Every fault of a
declaration is reported, in order, at the place that the last pragma before it named or,
without one, at its own line; and what is known in the end of the namespace, the class and
the properties are the declarations that said so. Nothing else enters.
-/

namespace ViewCompiler

/-- What is related to the members of a list is related to one of them. -/
theorem exists_related {α β : Type} {relation : α → β → Prop} {items : List α} {results : List β}
    (related : List.Forall₂ relation items results) {result : β} (member : result ∈ results) :
    ∃ item ∈ items, relation item result := by
  induction related with
  | nil => simp at member
  | cons first _ inductionHypothesis =>
    rcases List.mem_cons.mp member with rfl | later
    · exact ⟨_, by simp, first⟩
    · obtain ⟨item, among, holds⟩ := inductionHypothesis later
      exact ⟨item, by simp [among], holds⟩

/-- The place that is named behind a line. -/
def ClassLine.placeAfter (place : Option Mapping) : ClassLine → Option Mapping
  | .mapping named => named
  | _ => place

/-- The namespace that a line declares. -/
def ClassLine.within? : ClassLine → Option Text
  | .within name => some name
  | _ => none

/-- The route that a line declares. -/
def ClassLine.route? : ClassLine → Option Text
  | .route value => some value
  | _ => none

/-- The tag helper that a line declares. -/
def ClassLine.tagHelper? : ClassLine → Option Text
  | .tagHelper value => some value
  | _ => none

/-- The class that a line declares. -/
def ClassLine.declared? : ClassLine → Option (Text × Text)
  | .declares name base => some (name, base)
  | _ => none

/-- The property that a line declares. -/
def ClassLine.property? : ClassLine → Option InjectedProperty
  | .injects type name => some ⟨type, name⟩
  | _ => none

namespace Manifest

variable {references : List Text} {reading : Reading} {row : Nat} {place : Option Mapping}
  {line : ClassLine} {lines rest : List ClassLine}

/-- Hears declarations, the first of them having number `row`. -/
def Reading.hearAll (references : List Text) (reading : Reading) (row : Nat) :
    List ClassLine → Reading
  | [] => reading
  | line :: rest => (reading.take references row line).hearAll references (row + 1) rest

/-- Reading lines is hearing what they are read as. -/
theorem takeAll_eq_hearAll (raws : List Text) :
    reading.takeAll references row raws =
      reading.hearAll references row (raws.map ClassLine.read) := by
  induction raws generalizing reading row with
  | nil => rfl
  | cons raw raws inductionHypothesis => exact inductionHypothesis

/-- A line that is heard sets the place, or leaves it. -/
theorem take_place : (reading.take references row line).place = line.placeAfter reading.place := by
  cases line <;> rfl

/-- The faults of a line are reported behind those of the lines before it. -/
theorem take_diagnostics : (reading.take references row line).diagnostics =
    reading.diagnostics ++ (faultsOf references line).map (·.at_ row reading.place) := by
  cases line <;> rfl

/-- What every declaration of its kind replaces is in the end what the last one said. -/
theorem hearAll_last {α : Type} (field : Reading → Option α) (declared? : ClassLine → Option α)
    (step : ∀ reading row line, field (Reading.take references reading row line) =
      (declared? line).or (field reading)) :
    field (reading.hearAll references row lines) =
      (lines.filterMap declared?).getLast?.or (field reading) := by
  induction lines generalizing reading row with
  | nil => simp [Reading.hearAll]
  | cons line lines inductionHypothesis =>
    rw [Reading.hearAll, inductionHypothesis, step]
    cases known : declared? line with
    | none => simp [known]
    | some value => simp [known, List.getLast?_cons]

/-- What every declaration of its kind adds to is in the end all that was added, in order. -/
theorem hearAll_collected {α : Type} (field : Reading → List α) (declared? : ClassLine → Option α)
    (step : ∀ reading row line,
      field (Reading.take references reading row line) = field reading ++ (declared? line).toList) :
    field (reading.hearAll references row lines) = field reading ++ lines.filterMap declared? := by
  induction lines generalizing reading row with
  | nil => simp [Reading.hearAll]
  | cons line lines inductionHypothesis =>
    rw [Reading.hearAll, inductionHypothesis, step]
    cases known : declared? line <;> simp [known]

/-- The last namespace that is declared counts. -/
theorem hearAll_within : (reading.hearAll references row lines).within =
    (lines.filterMap ClassLine.within?).getLast?.or reading.within :=
  hearAll_last Reading.within ClassLine.within? fun _ _ line => by cases line <;> rfl

/-- The last route that is declared counts. -/
theorem hearAll_route : (reading.hearAll references row lines).route =
    (lines.filterMap ClassLine.route?).getLast?.or reading.route :=
  hearAll_last Reading.route ClassLine.route? fun _ _ line => by cases line <;> rfl

/-- The last class that is declared counts. -/
theorem hearAll_declared : (reading.hearAll references row lines).declared =
    (lines.filterMap ClassLine.declared?).getLast?.or reading.declared :=
  hearAll_last Reading.declared ClassLine.declared? fun _ _ line => by cases line <;> rfl

/-- Tag helpers are collected in the order of their lines. -/
theorem hearAll_tagHelpers : (reading.hearAll references row lines).tagHelpers =
    reading.tagHelpers ++ lines.filterMap ClassLine.tagHelper? :=
  hearAll_collected Reading.tagHelpers ClassLine.tagHelper? fun _ _ line => by
    cases line <;> simp [Reading.take, ClassLine.tagHelper?]

/-- So are properties. -/
theorem hearAll_injections : (reading.hearAll references row lines).injections =
    reading.injections ++ lines.filterMap ClassLine.property? :=
  hearAll_collected Reading.injections ClassLine.property? fun _ _ line => by
    cases line <;> simp [Reading.take, ClassLine.property?]

/-- The faults of declarations in order, each with the place that is named there. -/
def answers (references : List Text) (place : Option Mapping) :
    List ClassLine → List (ClassFault × Option Mapping)
  | [] => []
  | line :: rest =>
    (faultsOf references line).map (·, place) ++ answers references (line.placeAfter place) rest

/-- A fault as reported from one of the lines from `low` to before `high`. -/
def ReportedFrom (low high : Nat) (answer : ClassFault × Option Mapping) (diagnostic : Diagnostic) :
    Prop :=
  ∃ row, low ≤ row ∧ row < high ∧ diagnostic = answer.1.at_ row answer.2

/-- Every fault is reported, in order and at its place, and nothing else is. -/
theorem hearAll_diagnostics (references : List Text) (reading : Reading) (row : Nat)
    (lines : List ClassLine) :
    ∃ found, (reading.hearAll references row lines).diagnostics = reading.diagnostics ++ found ∧
      List.Forall₂ (ReportedFrom row (row + lines.length))
        (answers references reading.place lines) found := by
  induction lines generalizing reading row with
  | nil => exact ⟨[], by simp [Reading.hearAll], .nil⟩
  | cons line lines inductionHypothesis =>
    obtain ⟨found, reported, later⟩ :=
      inductionHypothesis (reading.take references row line) (row + 1)
    rw [take_place] at later
    refine ⟨(faultsOf references line).map (·.at_ row reading.place) ++ found, ?_, ?_⟩
    · rw [Reading.hearAll, reported, take_diagnostics, List.append_assoc]
    · refine List.rel_append ?_ (later.imp ?_)
      · rw [List.forall₂_map_left_iff, List.forall₂_map_right_iff, List.forall₂_same]
        intro fault _
        exact ⟨row, Nat.le_refl row, by simp, rfl⟩
      · rintro answer diagnostic ⟨at_, low, high, shape⟩
        refine ⟨at_, by omega, ?_, shape⟩
        simp only [List.length_cons]
        omega

/-- A text that declares a class is accepted if nothing is wrong with it. -/
theorem check_declared {code typeName baseType : Text}
    (heard : Reading.takeAll references {} 1 (Text.lines code) = reading)
    (declared : reading.declared = some (typeName, baseType)) :
    check references code = if reading.diagnostics.isEmpty then
      .ok ⟨reading.within.getD [], typeName, baseType, reading.route, reading.injections,
        reading.tagHelpers⟩
    else .error reading.diagnostics := by
  subst heard
  unfold check
  dsimp only
  rw [declared]

/-- A text that is refused is refused for something. -/
theorem check_refused {code : Text} {diagnostics : List Diagnostic}
    (refused : check references code = .error diagnostics) : diagnostics ≠ [] := by
  unfold check at refused
  dsimp only at refused
  split at refused
  · obtain rfl := Except.error.inj refused
    simp
  · split at refused
    · cases refused
    · rename_i wrong
      obtain rfl := Except.error.inj refused
      simpa using wrong

/-- A line that has no fault and names no place. -/
def Silent (line : ClassLine) : Prop :=
  (∀ references, faultsOf references line = []) ∧ ∀ place, line.placeAfter place = place

/-- Silent lines are passed over. -/
theorem answers_silent (silent : ∀ line ∈ lines, Silent line) :
    answers references place (lines ++ rest) = answers references place rest := by
  induction lines with
  | nil => rfl
  | cons line lines inductionHypothesis =>
    obtain ⟨sound, unplaced⟩ := silent line (by simp)
    have behind := inductionHypothesis fun later member => silent later (by simp [member])
    simpa only [List.cons_append, answers, sound, unplaced, List.map_nil, List.nil_append]
      using behind

end Manifest

end ViewCompiler

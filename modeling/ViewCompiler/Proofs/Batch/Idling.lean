import ViewCompiler.Proofs.Batch.Netting

/-!
# When a batch sleeps

A batch goes to sleep for an hour if it has nothing to wait for. It tells this by the time of the
last change that counted, which it forgets when it is taken. What is noted since then decides both
whether something is pending and whether the batch sleeps, but not in the same way: nothing is
pending if all that was noted cancels out, and the batch sleeps if nothing was noted at all. So a
batch of which every file that came has gone again is empty and never ready, and yet it is looked
at every millisecond until something else happens.
-/

namespace ViewCompiler.Batch

open Physical ChangeKind

/-- A change that a batch notes, and when. -/
structure Note where
  now : Nat
  change : Change

/-- What a report makes a batch note. -/
def Report.notes (report : Report) (cwd : Text) : List Note :=
  match ofHappening? report.happening with
  | some kind => (report.paths.filter fun spelled => !isTemporary spelled).map fun spelled =>
      ⟨report.now, ⟨report.disk.canonical cwd spelled, kind⟩⟩
  | none => []

/-- The batch after some notes. -/
def noteAll (batch : Batch) : List Note → Batch
  | [] => batch
  | noted :: notes => ((batch.note noted.now noted.change.path noted.change.kind).1).noteAll notes

/-- What was noted about the file of a path. -/
def noticed (path : Text) (notes : List Note) : List ChangeKind :=
  (notes.filter fun noted => components noted.change.path = components path).map fun noted =>
    noted.change.kind

/-- What is done with a batch: something is reported to it, or it is taken if it is ready. -/
inductive Call
  | add (report : Report)
  | take (now : Nat)

/-- The batch after a call. -/
def call (cwd : Text) (batch : Batch) : Call → Batch
  | .add report => (batch.add report.disk cwd report.now report.happening report.paths).1
  | .take now => (batch.take? now).2

/-- What stands noted after a call: a report adds to it, and taking the batch clears it. -/
def noting (cwd : Text) (batch : Batch) (notes : List Note) : Call → List Note
  | .add report => notes ++ report.notes cwd
  | .take now => if batch.isReady now then [] else notes

/-- What was noted in the course of some calls since the batch was last taken. -/
def standing (cwd : Text) (batch : Batch) (notes : List Note) : List Call → List Note
  | [] => notes
  | done :: calls => standing cwd (batch.call cwd done) (batch.noting cwd notes done) calls

variable {batch begun : Batch} {cwd path : Text} {notes : List Note} {now : Nat}

/-- A batch of which nothing is kept, and which remembers no change. -/
structure Blank (batch : Batch) : Prop where
  changes : batch.changes = []
  lastChange : batch.lastChange = none

/-- A batch is what its notes have made of a blank one. -/
def Stems (batch : Batch) (notes : List Note) : Prop :=
  ∃ begun : Batch, begun.Blank ∧ batch = begun.noteAll notes

/-- Notes are taken one after the other. -/
theorem noteAll_append (batch : Batch) (notes more : List Note) :
    batch.noteAll (notes ++ more) = (batch.noteAll notes).noteAll more := by
  induction notes generalizing batch with
  | nil => rfl
  | cons noted notes inductionHypothesis => exact inductionHypothesis _

/-- A report is noted change by change. -/
theorem add_notes (batch : Batch) (cwd : Text) (report : Report) :
    (batch.add report.disk cwd report.now report.happening report.paths).1 =
      batch.noteAll (report.notes cwd) := by
  obtain ⟨disk, now, happening, paths⟩ := report
  unfold Report.notes
  cases counts : ofHappening? happening with
  | none => exact add_ignored counts
  | some kind =>
    induction paths generalizing batch with
    | nil => rfl
    | cons spelled paths inductionHypothesis =>
      rw [add_cons counts, inductionHypothesis]
      cases temporary : isTemporary spelled with
      | true => simp [temporary]
      | false => simp [temporary, noteAll]

/-- A call leaves a batch what its notes have made of a blank one. -/
theorem Stems.after (stems : batch.Stems notes) (done : Call) :
    (batch.call cwd done).Stems (batch.noting cwd notes done) := by
  cases done with
  | add report =>
    obtain ⟨begun, blank, rfl⟩ := stems
    refine ⟨begun, blank, ?_⟩
    rw [noting, noteAll_append]
    exact add_notes _ cwd report
  | take now =>
    by_cases ready : batch.isReady now = true
    · have taken : batch.call cwd (.take now) =
          { batch with changes := [], lastChange := none, lastTaken := some now } := by
        simp only [Batch.call, take?, ready, ↓reduceIte]
      rw [noting, if_pos ready, taken]
      exact ⟨_, ⟨rfl, rfl⟩, rfl⟩
    · have stays : batch.call cwd (.take now) = batch := by
        simp only [Batch.call, take?, ready, Bool.false_eq_true, ↓reduceIte]
      rw [noting, if_neg ready, stays]
      exact stems

/-- After any calls a batch stems from what was noted since it was last taken. -/
theorem Stems.afterAll (stems : batch.Stems notes) (calls : List Call) :
    (calls.foldl (call cwd) batch).Stems (standing cwd batch notes calls) := by
  induction calls generalizing batch notes with
  | nil => exact stems
  | cons done calls inductionHypothesis => exact inductionHypothesis (stems.after done)

/-- What is kept for a file is what was noted about it, merged. -/
theorem Keeps.noteAll {known : Option ChangeKind} (keeps : batch.Keeps path known)
    (notes : List Note) :
    (batch.noteAll notes).Keeps path ((noticed path notes).foldl merged known) := by
  induction notes generalizing batch known with
  | nil => exact keeps
  | cons noted notes inductionHypothesis =>
    by_cases own : components noted.change.path = components path
    · have merges : (batch.note noted.now noted.change.path noted.change.kind).1.Keeps path
          (merged known noted.change.kind) :=
        (keeps.congr own.symm).note_own.congr own
      simpa [noticed, own, Batch.noteAll] using inductionHypothesis merges
    · have stays : (batch.note noted.now noted.change.path noted.change.kind).1.Keeps path known := by
        unfold Keeps
        rw [ofPath_note batch noted.now noted.change.kind (Ne.symm own)]
        exact keeps
      simpa [noticed, own, Batch.noteAll] using inductionHypothesis stays

/-- Nothing is pending exactly if everything that was noted cancels out. -/
theorem Stems.pending_eq_zero_iff (stems : batch.Stems notes) :
    batch.pending = 0 ↔ ∀ path, (noticed path notes).foldl merged none = none := by
  obtain ⟨begun, blank, rfl⟩ := stems
  have keeps (path : Text) :
      (begun.noteAll notes).Keeps path ((noticed path notes).foldl merged none) := by
    apply Keeps.noteAll
    rw [Keeps, blank.changes]
    rfl
  rw [pending, List.length_eq_zero_iff]
  constructor
  · intro empty path
    have kept := keeps path
    rw [Keeps, empty] at kept
    exact Option.toList_eq_nil_iff.mp kept.symm
  · intro cancels
    rw [List.eq_nil_iff_forall_not_mem]
    intro change member
    have nothing : ofPath change.path (begun.noteAll notes).changes = [] := by
      have kept := keeps change.path
      rw [Keeps, cancels change.path] at kept
      exact List.map_eq_nil_iff.mp kept
    have among : change ∈ ofPath change.path (begun.noteAll notes).changes :=
      List.mem_filter.mpr ⟨member, by simp⟩
    rw [nothing] at among
    cases among

/-- Once a change counted, a batch remembers the time of one. -/
theorem remembers_noteAll (remembers : batch.lastChange ≠ none) (notes : List Note) :
    (batch.noteAll notes).lastChange ≠ none := by
  induction notes generalizing batch with
  | nil => exact remembers
  | cons noted notes inductionHypothesis =>
    apply inductionHypothesis
    rcases batch.note_frame noted.now noted.change.path noted.change.kind with
      stays | ⟨changes, becomes⟩
    · rwa [stays]
    · rw [becomes]
      nofun

/-- A time is remembered exactly if something was noted. -/
theorem Stems.lastChange_eq_none_iff (stems : batch.Stems notes) :
    batch.lastChange = none ↔ notes = [] := by
  obtain ⟨begun, blank, rfl⟩ := stems
  cases notes with
  | nil => exact iff_of_true blank.lastChange rfl
  | cons noted notes =>
    refine iff_of_false (remembers_noteAll ?_ notes) nofun
    have unknown : begun.find? noted.change.path = none := by rw [find?, blank.changes]; rfl
    simp [note, unknown]

/-- A batch that remembers a change is soon looked at every millisecond. -/
theorem exists_sleep_eq_one (remembers : batch.lastChange ≠ none) :
    ∃ moment, ∀ now, moment ≤ now → batch.sleep now = 1 := by
  obtain ⟨last, changed⟩ := Option.ne_none_iff_exists'.mp remembers
  cases taken : batch.lastTaken with
  | none =>
    refine ⟨last + batch.window, fun now late => ?_⟩
    simp only [sleep, changed, taken]
    omega
  | some time =>
    refine ⟨last + batch.window + (time + batch.cooldown), fun now late => ?_⟩
    simp only [sleep, changed, taken]
    omega

/-- A batch sleeps exactly if it remembers no change. -/
theorem sleep_eq_idle_iff (batch : Batch) :
    (∀ now, batch.sleep now = idle) ↔ batch.lastChange = none := by
  constructor
  · intro sleeps
    by_contra remembers
    obtain ⟨moment, awake⟩ := exists_sleep_eq_one remembers
    have short := (awake moment le_rfl).symm.trans (sleeps moment)
    cases short
  · intro forgotten now
    rw [sleep, forgotten]

/-- Whatever is done with a batch: it is never ready while nothing is pending; nothing is pending
exactly if all cancels out that was noted since it was last taken; it sleeps, and remembers no
change, exactly if nothing was noted since then; and if something was, but all of it cancels out,
it is soon looked at every millisecond. -/
theorem sleep_exact (window : Nat) (cwd : Text) (calls : List Call) :
    let begun : Batch := { window }
    let batch := calls.foldl (call cwd) begun
    let notes := standing cwd begun [] calls
    (batch.pending = 0 → ∀ now, batch.isReady now = false) ∧
      (batch.pending = 0 ↔ ∀ path, (noticed path notes).foldl merged none = none) ∧
      ((∀ now, batch.sleep now = idle) ↔ notes = []) ∧
      (batch.lastChange = none ↔ notes = []) ∧
      (batch.pending = 0 → notes ≠ [] →
        ∃ moment, ∀ now, moment ≤ now → batch.sleep now = 1) := by
  intro begun batch notes
  have blank : begun.Stems [] := ⟨begun, ⟨rfl, rfl⟩, rfl⟩
  have stems : batch.Stems notes := blank.afterAll calls
  have remembers := stems.lastChange_eq_none_iff
  refine ⟨?_, stems.pending_eq_zero_iff, ?_, remembers, ?_⟩
  · intro nothing now
    have empty : batch.changes = [] := List.length_eq_zero_iff.mp nothing
    unfold isReady
    cases batch.lastChange with
    | none => rfl
    | some last => simp [empty]
  · exact (sleep_eq_idle_iff batch).trans remembers
  · intro _ noted
    exact exists_sleep_eq_one (mt remembers.mp noted)

/-- A file comes and goes: nothing is pending, and the batch is looked at every millisecond. -/
theorem sleep_discarded :
    let calls : List Call := [.add ⟨{}, 0, .appeared, ["/v/a".toList]⟩,
      .add ⟨{}, 1, .vanished, ["/v/a".toList]⟩]
    let batch := calls.foldl (call ['/']) { window := 300 }
    batch.pending = 0 ∧ batch.lastChange = some 1 ∧ batch.sleep 301 = 1 ∧ batch.sleep 301 ≠ idle := by
  decide +kernel

end ViewCompiler.Batch

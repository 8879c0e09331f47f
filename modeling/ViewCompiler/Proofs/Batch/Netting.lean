import ViewCompiler.Batch
import ViewCompiler.Proofs.Disk.Spelling

/-!
# What a batch makes of a burst

A batch keeps one change for each file, and merges it with every further one by a rule for two
changes. For changes that a file can go through, from wherever it starts, the rules add up to
this: a file that is absent in the end was removed, and one that is there was created if it was
ever created in the burst and else modified. But a file that was created in the burst and is
absent in the end leaves nothing, even if it had been there before: once a file is restored, the
batch no longer knows that it was removed.
-/

namespace ViewCompiler

namespace ChangeKind

/-- Whether a file exists after a change, if it can go through it: it is created only if absent,
and modified or removed only if present. -/
def after? : (present : Bool) → ChangeKind → Option Bool
  | false, .created => some true
  | true, .modified => some true
  | true, .removed => some false
  | _, _ => none

/-- Whether a file exists after some changes, if it can go through them. -/
def outcome? (present : Bool) : List ChangeKind → Option Bool
  | [] => some present
  | kind :: kinds => (after? present kind).bind (outcome? · kinds)

/-- What one more change makes of the change that is kept. -/
def merged : Option ChangeKind → ChangeKind → Option ChangeKind
  | none, kind => some kind
  | some .removed, .created => some .created
  | some .removed, .modified => some .modified
  | some .modified, .removed => some .removed
  | some .created, .removed => none
  | known, _ => known

/-- What changes amount to that leave a file present or absent. -/
def net (kinds : List ChangeKind) (present : Bool) : Option ChangeKind :=
  if kinds = [] then none
  else if .created ∈ kinds then (if present then some .created else none)
  else some (if present then .modified else .removed)

variable {kinds seen : List ChangeKind} {before after present : Bool} {kind : ChangeKind}

/-- One more change that a file can go through keeps the kept change equal to what all changes
amount to. -/
theorem merged_net (follows : after? present kind = some after) :
    merged (net seen present) kind = net (seen ++ [kind]) after := by
  cases seen with
  | nil => cases present <;> cases kind <;> cases follows <;> rfl
  | cons first seen =>
    by_cases created : .created ∈ first :: seen
    · cases present <;> cases kind <;> cases follows <;> simp_all [net, merged]
    · cases present <;> cases kind <;> cases follows <;> simp_all [net, merged]

/-- The rules for two changes add up over all that a file can go through. -/
theorem foldl_merged (lawful : outcome? before kinds = some after) :
    kinds.foldl merged none = net kinds after := by
  have further (seen : List ChangeKind) :
      kinds.foldl merged (net seen before) = net (seen ++ kinds) after := by
    induction kinds generalizing before seen with
    | nil =>
      obtain rfl := Option.some.inj lawful
      rw [List.foldl_nil, List.append_nil]
    | cons kind kinds inductionHypothesis =>
      obtain ⟨present, follows, lawful⟩ := Option.bind_eq_some_iff.mp lawful
      rw [List.foldl_cons, merged_net follows, inductionHypothesis lawful, List.append_assoc]
      rfl
  exact further []

/-- A file that was absent and went through something was created. -/
theorem created_of_absent (lawful : outcome? false kinds = some after) (nonempty : kinds ≠ []) :
    .created ∈ kinds := by
  cases kinds with
  | nil => exact absurd rfl nonempty
  | cons kind kinds =>
    cases kind with
    | created => exact List.mem_cons_self
    | modified => cases lawful
    | removed => cases lawful

/-- Changes amount to nothing if there are none, or if the file is absent in the end and was so
before or was created on the way. -/
theorem net_eq_none_iff (lawful : outcome? before kinds = some after) : net kinds after = none ↔
    kinds = [] ∨ (before = false ∧ after = false) ∨
      (before = true ∧ after = false ∧ .created ∈ kinds) := by
  by_cases empty : kinds = []
  · simp [net, empty]
  · cases before with
    | false =>
      have created := created_of_absent lawful empty
      cases after <;> simp [net, empty, created]
    | true => by_cases created : .created ∈ kinds <;> cases after <;> simp [net, empty, created]

/-- Changes amount to a removal exactly if they leave the file absent. -/
theorem net_removed_iff (amounts : net kinds after = some kind) : kind = .removed ↔ after = false := by
  unfold net at amounts
  split at amounts
  · cases amounts
  · split at amounts <;> cases after <;> cases amounts <;> simp

end ChangeKind

namespace Batch

open Physical ChangeKind

/-- What a file system reports at some time about some paths, with the disk as it is then. -/
structure Report where
  disk : Disk
  now : Nat
  happening : Happening
  paths : List Text

/-- The batch after some reports. -/
def addAll (batch : Batch) (cwd : Text) : List Report → Batch
  | [] => batch
  | report :: reports =>
    ((batch.add report.disk cwd report.now report.happening report.paths).1).addAll cwd reports

/-- What happens to the file of a path according to one report. -/
def Report.kinds (report : Report) (cwd path : Text) : List ChangeKind :=
  match ofHappening? report.happening with
  | some kind => (report.paths.filter fun spelled =>
      components (report.disk.canonical cwd spelled) = components path).map fun _ => kind
  | none => []

/-- What happens to the file of a path according to all reports. -/
def kindsOf (cwd path : Text) (reports : List Report) : List ChangeKind :=
  reports.flatMap fun report => report.kinds cwd path

/-- The changes of the file of a path among some changes. -/
def ofPath (path : Text) (changes : List Change) : List Change :=
  changes.filter fun change => components change.path = components path

/-- What a batch keeps for the file of a path is one change of this kind, or no change. -/
def Keeps (batch : Batch) (path : Text) (known : Option ChangeKind) : Prop :=
  (ofPath path batch.changes).map Change.kind = known.toList

/-- A batch of which nothing is younger than the window by some time. -/
def Settles (batch : Batch) (deadline : Nat) : Prop :=
  batch.changes = [] ∨ ∃ last, batch.lastChange = some last ∧ last + batch.window ≤ deadline

variable {batch : Batch} {disk : Disk} {cwd path other : Text} {now deadline : Nat}
  {happening : Happening} {paths : List Text} {reports : List Report}
  {kind : ChangeKind} {known : Option ChangeKind}

/-- A path that does not climb stands for the same file in every report, whatever is on the disk
by then. -/
theorem Report.kinds_plain (report : Report) (absolute : isAbsolute cwd = true)
    (plain : ∀ spelled ∈ report.paths, ['.', '.'] ∉ rawPieces (join cwd spelled)) :
    report.kinds cwd path = match ofHappening? report.happening with
      | some kind => (report.paths.filter fun spelled =>
          components (join cwd spelled) = components path).map fun _ => kind
      | none => [] := by
  have same : report.paths.filter (fun spelled =>
        components (report.disk.canonical cwd spelled) = components path) =
      report.paths.filter fun spelled => components (join cwd spelled) = components path := by
    apply List.filter_congr
    intro spelled member
    rw [report.disk.components_canonical absolute (plain spelled member)]
  unfold kinds
  split
  · rw [same]
  · rfl

/-- A batch finds the first change that it keeps for the file of a path. -/
theorem find?_eq_head? (batch : Batch) (path : Text) :
    batch.find? path = (ofPath path batch.changes).head? :=
  List.head?_filter.symm

/-- A path that is spelled otherwise stands for the same file if it has the same steps. -/
theorem Keeps.congr (same : components path = components other) (keeps : batch.Keeps path known) :
    batch.Keeps other known := by
  unfold Keeps ofPath at keeps ⊢
  rwa [← same]

/-- Each change of the file that is exchanged gets the new kind. -/
theorem exchanged_own (batch : Batch) (path : Text) (kind : ChangeKind) :
    (ofPath path (batch.exchanged path kind)).map Change.kind =
      (ofPath path batch.changes).map fun _ => kind := by
  unfold ofPath exchanged
  induction batch.changes with
  | nil => rfl
  | cons change changes inductionHypothesis =>
    by_cases own : components change.path = components path
    · simpa [own] using inductionHypothesis
    · simpa [own] using inductionHypothesis

/-- An exchange leaves the changes of other files alone. -/
theorem exchanged_other (batch : Batch) (kind : ChangeKind)
    (differs : components path ≠ components other) :
    ofPath path (batch.exchanged other kind) = ofPath path batch.changes := by
  unfold ofPath exchanged
  induction batch.changes with
  | nil => rfl
  | cons change changes inductionHypothesis =>
    by_cases own : components change.path = components other
    · simpa [own, Ne.symm differs] using inductionHypothesis
    · by_cases mine : components change.path = components path
      · simpa [own, mine, differs] using inductionHypothesis
      · simpa [own, mine] using inductionHypothesis

/-- Nothing is left of the file that is taken out. -/
theorem without_own (batch : Batch) (path : Text) : ofPath path (batch.without path) = [] := by
  simp [ofPath, without]

/-- Taking out one file leaves the changes of other files alone. -/
theorem without_other (batch : Batch) (differs : components path ≠ components other) :
    ofPath path (batch.without other) = ofPath path batch.changes := by
  unfold ofPath without
  rw [List.filter_filter]
  apply List.filter_congr
  intro change _
  by_cases mine : components change.path = components path
  · simp [mine, differs]
  · simp [mine]

/-- Noting a change of a file merges it with what is kept for this file. -/
theorem Keeps.note_own (keeps : batch.Keeps path known) :
    (batch.note now path kind).1.Keeps path (merged known kind) := by
  unfold Keeps at keeps
  unfold note
  rw [find?_eq_head?]
  cases known with
  | none =>
    have nothing : ofPath path batch.changes = [] := List.map_eq_nil_iff.mp keeps
    rw [nothing]
    have appended : ofPath path (batch.changes ++ [⟨path, kind⟩]) = [⟨path, kind⟩] := by
      rw [ofPath, List.filter_append]
      simpa [ofPath] using nothing
    simp [Keeps, appended, merged]
  | some known =>
    obtain ⟨change, alone, rfl⟩ := List.map_eq_singleton_iff.mp keeps
    have exchanged (kind : ChangeKind) :
        (ofPath path (batch.exchanged path kind)).map Change.kind = [kind] := by
      rw [exchanged_own, alone]
      rfl
    rw [alone]
    cases had : change.kind <;> cases kind <;>
      simp [Keeps, had, merged, exchanged, without_own, alone]

/-- Nothing else is touched. -/
theorem ofPath_note (batch : Batch) (now : Nat) (kind : ChangeKind)
    (differs : components path ≠ components other) :
    ofPath path (batch.note now other kind).1.changes = ofPath path batch.changes := by
  unfold note
  split
  · simp [ofPath, Ne.symm differs]
  · split
    · exact batch.exchanged_other _ differs
    · exact batch.exchanged_other _ differs
    · exact batch.exchanged_other _ differs
    · exact batch.without_other differs
    · rfl

/-- Noting a change moves neither the window nor the time of the last batch. -/
theorem note_frame (batch : Batch) (now : Nat) (path : Text) (kind : ChangeKind) :
    (batch.note now path kind).1 = batch ∨ ∃ changes,
      (batch.note now path kind).1 = { batch with changes, lastChange := some now } := by
  unfold note
  split
  · exact .inr ⟨_, rfl⟩
  · split
    · exact .inr ⟨_, rfl⟩
    · exact .inr ⟨_, rfl⟩
    · exact .inr ⟨_, rfl⟩
    · exact .inr ⟨_, rfl⟩
    · exact .inl rfl

/-- A report of no change adds nothing, and one of a change notes it for one path after the
other, except for those of temporary files. -/
theorem add_ignored (ignored : ofHappening? happening = none) :
    (batch.add disk cwd now happening paths).1 = batch := by
  induction paths with
  | nil => rfl
  | cons path paths inductionHypothesis => simp [add, ignored, inductionHypothesis]

/-- A report that counts is noted path by path, except for temporary files. -/
theorem add_cons (counts : ofHappening? happening = some kind) (spelled : Text) :
    (batch.add disk cwd now happening (spelled :: paths)).1 =
      ((if isTemporary spelled then batch
        else (batch.note now (disk.canonical cwd spelled) kind).1).add disk cwd now happening paths).1 := by
  simp only [add, counts]
  split <;> rfl

/-- What noting keeps is kept by every report. -/
theorem add_induction {motive : Batch → Prop} (holds : motive batch)
    (noted : ∀ batch path kind, motive batch → motive (batch.note now path kind).1) :
    motive (batch.add disk cwd now happening paths).1 := by
  cases counts : ofHappening? happening with
  | none =>
    rw [add_ignored counts]
    exact holds
  | some kind =>
    induction paths generalizing batch with
    | nil => exact holds
    | cons spelled paths inductionHypothesis =>
      rw [add_cons counts]
      apply inductionHypothesis
      split
      · exact holds
      · exact noted batch _ kind holds

/-- Reports move neither the window nor the time of the last batch. -/
theorem add_frame (batch : Batch) (disk : Disk) (cwd : Text) (now : Nat) (happening : Happening)
    (paths : List Text) :
    (batch.add disk cwd now happening paths).1.window = batch.window ∧
      (batch.add disk cwd now happening paths).1.lastTaken = batch.lastTaken := by
  apply add_induction (motive := fun later =>
    later.window = batch.window ∧ later.lastTaken = batch.lastTaken) ⟨rfl, rfl⟩
  intro later path kind same
  rcases later.note_frame now path kind with stays | ⟨changes, becomes⟩
  · rwa [stays]
  · rwa [becomes]

/-- Reports move neither the window nor the time of the last batch, however many there are. -/
theorem addAll_frame (batch : Batch) (cwd : Text) (reports : List Report) :
    (batch.addAll cwd reports).window = batch.window ∧
      (batch.addAll cwd reports).lastTaken = batch.lastTaken := by
  induction reports generalizing batch with
  | nil => exact ⟨rfl, rfl⟩
  | cons report reports inductionHypothesis =>
    obtain ⟨window, taken⟩ :=
      batch.add_frame report.disk cwd report.now report.happening report.paths
    obtain ⟨later, further⟩ := inductionHypothesis
      (batch.add report.disk cwd report.now report.happening report.paths).1
    exact ⟨later.trans window, further.trans taken⟩

/-- A batch settles if every report is older than the window. -/
theorem Settles.add (settles : batch.Settles deadline) (old : now + batch.window ≤ deadline) :
    (batch.add disk cwd now happening paths).1.Settles deadline := by
  have both : (batch.add disk cwd now happening paths).1.Settles deadline ∧
      (batch.add disk cwd now happening paths).1.window = batch.window := by
    apply add_induction (motive := fun later =>
      later.Settles deadline ∧ later.window = batch.window) ⟨settles, rfl⟩
    intro later path kind ⟨settled, window⟩
    rcases later.note_frame now path kind with stays | ⟨changes, becomes⟩
    · rw [stays]
      exact ⟨settled, window⟩
    · rw [becomes]
      exact ⟨.inr ⟨now, rfl, window ▸ old⟩, window⟩
  exact both.1

/-- A batch settles by a deadline if all its reports come a window before it. -/
theorem Settles.addAll (settles : batch.Settles deadline)
    (quiet : ∀ report ∈ reports, report.now + batch.window ≤ deadline) :
    (batch.addAll cwd reports).Settles deadline := by
  induction reports generalizing batch with
  | nil => exact settles
  | cons report reports inductionHypothesis =>
    obtain ⟨own, further⟩ := List.forall_mem_cons.mp quiet
    apply inductionHypothesis (settles.add own)
    rw [(batch.add_frame report.disk cwd report.now report.happening report.paths).1]
    exact further

/-- Whether a path is that of a temporary file can be seen from its last name. -/
theorem isTemporary_congr (same : fileName? path = fileName? other) :
    isTemporary path = isTemporary other := by
  simp only [isTemporary, extension?, same]

/-- A temporary file is one in its canonical spelling too. -/
theorem isTemporary_canonical (disk : Disk) (cwd : Text) (temporary : isTemporary path = true) :
    isTemporary (disk.canonical cwd path) = true := by
  cases named : fileName? path with
  | none =>
    have nameless : isTemporary path = isTemporary [] := isTemporary_congr (named.trans rfl)
    rw [nameless] at temporary
    cases temporary
  | some name =>
    rw [← temporary]
    exact isTemporary_congr ((disk.fileName?_canonical cwd named).trans named.symm)

/-- A report merges what happens to a file with what is kept for it. -/
theorem Keeps.add (keeps : batch.Keeps path known) (lasting : isTemporary path = false)
    (report : Report) :
    (batch.add report.disk cwd report.now report.happening report.paths).1.Keeps path
      ((report.kinds cwd path).foldl merged known) := by
  obtain ⟨disk, now, happening, paths⟩ := report
  unfold Report.kinds
  cases counts : ofHappening? happening with
  | none =>
    rw [add_ignored counts]
    exact keeps
  | some kind =>
    induction paths generalizing batch known with
    | nil => exact keeps
    | cons spelled paths inductionHypothesis =>
      rw [add_cons counts]
      by_cases own : components (disk.canonical cwd spelled) = components path
      · have regular : ¬ isTemporary spelled = true := by
          intro temporary
          have also : isTemporary (disk.canonical cwd spelled) = isTemporary path :=
            isTemporary_congr (by rw [fileName?, own, ← fileName?])
          rw [isTemporary_canonical disk cwd temporary, lasting] at also
          cases also
        have noted : (batch.note now (disk.canonical cwd spelled) kind).1.Keeps path
            (merged known kind) :=
          (keeps.congr own.symm).note_own.congr own
        rw [if_neg regular]
        simpa [own] using inductionHypothesis noted
      · have stays : (if isTemporary spelled then batch
            else (batch.note now (disk.canonical cwd spelled) kind).1).Keeps path known := by
          split
          · exact keeps
          · unfold Keeps
            rw [ofPath_note batch now kind (Ne.symm own)]
            exact keeps
        simpa [own] using inductionHypothesis stays

/-- So a batch ends up with all that happened to a file, merged into one change. -/
theorem Keeps.addAll (keeps : batch.Keeps path known) (lasting : isTemporary path = false)
    (reports : List Report) :
    (batch.addAll cwd reports).Keeps path ((kindsOf cwd path reports).foldl merged known) := by
  induction reports generalizing batch known with
  | nil => exact keeps
  | cons report reports inductionHypothesis =>
    rw [kindsOf, List.flatMap_cons, List.foldl_append]
    exact inductionHypothesis (keeps.add lasting report)

/-- A batch that has settled and cooled down is taken, unless there is nothing to take. -/
theorem take?_settled (settles : batch.Settles now)
    (cooled : ∀ taken, batch.lastTaken = some taken → taken + batch.cooldown ≤ now) :
    (batch.take? now).1.getD [] = sorted batch.changes := by
  unfold take?
  by_cases ready : batch.isReady now = true
  · rw [if_pos ready]
    rfl
  · have nothing : batch.changes = [] := by
      rcases settles with empty | ⟨last, changed, old⟩
      · exact empty
      · have aged : batch.window ≤ now - last := by omega
        cases taken : batch.lastTaken with
        | none => simpa [isReady, changed, taken, aged] using ready
        | some time =>
          have rested : time + batch.cooldown ≤ now := cooled time taken
          have cool : batch.cooldown ≤ now - time := by omega
          simpa [isReady, changed, taken, aged, cool] using ready
    rw [if_neg ready, nothing]
    simp [sorted]

/-- What is taken is what was kept, in another order. -/
theorem Keeps.sorted (keeps : batch.Keeps path known) :
    (ofPath path (sorted batch.changes)).map Change.kind = known.toList := by
  have permuted : ((ofPath path (Batch.sorted batch.changes)).map Change.kind).Perm
      ((ofPath path batch.changes).map Change.kind) :=
    ((List.mergeSort_perm _ _).filter _).map _
  unfold Keeps at keeps
  rw [keeps] at permuted
  cases known with
  | none => exact List.Perm.eq_nil permuted
  | some kind => exact List.perm_singleton.mp permuted

/-- A batch that is begun empty and taken once it has settled has at most one change of a file.
It has none exactly if nothing happened to the file, or if the file is absent in the end and was
so before or was removed and restored on the way, and the change is a removal exactly if the file
is absent in the end. -/
theorem taken_net (batch : Batch) (cwd path : Text) (reports : List Report) (before after : Bool)
    (now : Nat) (empty : batch.changes = []) (lasting : isTemporary path = false)
    (lawful : outcome? before (kindsOf cwd path reports) = some after)
    (quiet : ∀ report ∈ reports, report.now + batch.window ≤ now)
    (cooled : ∀ taken, batch.lastTaken = some taken → taken + batch.cooldown ≤ now) :
    let kinds := kindsOf cwd path reports
    let taken := ((batch.addAll cwd reports).take? now).1.getD []
    (ofPath path taken = [] ↔ kinds = [] ∨ (before = false ∧ after = false) ∨
      (before = true ∧ after = false ∧ .created ∈ kinds)) ∧
    (∀ change ∈ ofPath path taken, change.kind = .removed ↔ after = false) ∧
    (ofPath path taken).length ≤ 1 := by
  intro kinds taken
  have begun : batch.Keeps path none := by
    rw [Keeps, empty]
    rfl
  have window : (batch.addAll cwd reports).cooldown = batch.cooldown := by
    rw [cooldown, cooldown, (batch.addAll_frame cwd reports).1]
  have all : taken = sorted (batch.addAll cwd reports).changes := by
    apply take?_settled (Settles.addAll (.inl empty) quiet)
    rw [(batch.addAll_frame cwd reports).2, window]
    exact cooled
  have one : (ofPath path taken).map Change.kind = (net kinds after).toList := by
    rw [all, ← foldl_merged lawful]
    exact (begun.addAll lasting reports).sorted
  refine ⟨?_, ?_, ?_⟩
  · rw [← net_eq_none_iff lawful, ← Option.toList_eq_nil_iff, ← one, List.map_eq_nil_iff]
  · intro change member
    have amounts : net kinds after = some change.kind := by
      rw [← Option.mem_toList, ← one]
      exact List.mem_map_of_mem member
    exact net_removed_iff amounts
  · rw [← List.length_map Change.kind, one]
    cases net kinds after <;> simp

/-- A file that is removed and written anew while another one comes and goes is created. -/
theorem taken_net_replaced :
    let reports : List Report := [⟨{}, 0, .vanished, ["/v/a".toList]⟩,
      ⟨{}, 1, .appeared, ["/v/b".toList]⟩, ⟨{}, 2, .appeared, ["/v//a".toList]⟩,
      ⟨{}, 3, .vanished, ["/v/b".toList]⟩, ⟨{}, 4, .altered, ["/v/./a".toList, "/v/.a.swp".toList]⟩]
    let batch : Batch := { window := 5, lastTaken := some 0 }
    let taken := ((batch.addAll ['/'] reports).take? 10).1.getD []
    isTemporary "/v/a".toList = false ∧
      outcome? true (kindsOf ['/'] "/v/a".toList reports) = some true ∧
      ofPath "/v/a".toList taken ≠ [] ∧
      ∀ change ∈ ofPath "/v/a".toList taken, change.kind ≠ .removed := by
  intro reports batch taken
  have lasting : isTemporary "/v/a".toList = false := by decide +kernel
  have lawful : outcome? true (kindsOf ['/'] "/v/a".toList reports) = some true := by
    decide +kernel
  have happened : kindsOf ['/'] "/v/a".toList reports ≠ [] := by decide +kernel
  obtain ⟨missing, kept, -⟩ := taken_net batch ['/'] "/v/a".toList reports true true 10 rfl lasting
    lawful (by decide) (by simp [batch, cooldown])
  refine ⟨lasting, lawful, ?_, ?_⟩
  · intro nothing
    rcases missing.mp nothing with empty | ⟨-, absent⟩ | ⟨-, absent, -⟩
    · exact happened empty
    · cases absent
    · cases absent
  · intro change member removal
    have absent := (kept change member).mp removal
    cases absent

/-- A file that is removed, restored and removed for good is missing from the batch, although it
was there before and is not there after. -/
theorem restored_removal_lost :
    let path := "/v/a".toList
    let reports : List Report :=
      [⟨{}, 0, .vanished, [path]⟩, ⟨{}, 1, .appeared, [path]⟩, ⟨{}, 2, .vanished, [path]⟩]
    isTemporary path = false ∧ outcome? true (kindsOf ['/'] path reports) = some false ∧
      ofPath path (((({ window := 0 } : Batch).addAll ['/'] reports).take? 3).1.getD []) = [] := by
  decide +kernel

end Batch

end ViewCompiler

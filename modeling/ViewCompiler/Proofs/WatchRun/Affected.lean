import ViewCompiler.Proofs.Cache.Links
import ViewCompiler.Proofs.Checker.Anew
import ViewCompiler.Proofs.Checker.Rounds
import ViewCompiler.WatchRun

/-!
# What a batch of changes concerns

A watch run that is told of changes has two answers to what a change concerns. Signals say which
entries go out of date: those that watch the path or anything below it. The dependency graph
says which templates are checked again: those that watch the path itself. So an entry that goes
out of date is among the templates that are checked again exactly if a change of the batch is of
a path that the entry watches. A change of a directory alone leaves the templates below it out
of date and unchecked.
-/

namespace ViewCompiler

open Logical Directory

namespace Checker

variable {checker : Checker} {first : Cache Directory DirectoryToken} {step : Step}
  {steps : List Step}

/-- Whatever happens to a checker that is told of changes leaves its cache linked. -/
theorem linked_take (linked : Cache.Linked Signalled Hears first checker.cache) :
    Cache.Linked Signalled Hears first (checker.take step).cache := by
  cases step with
  | edit change =>
    exact linked.withProject fun signalled => ⟨signalled, fun _ _ hears => hears⟩
  | tell path =>
    obtain ⟨journal, told⟩ := checker.notify_told path
    have project : Cache.Linked Signalled Hears first
        { checker.cache with project := checker.cache.project.tell path } :=
      linked.withProject fun signalled =>
        ⟨signalled.tell path, fun _ _ hears => hears.tell path⟩
    rw [Checker.take, told]
    exact ⟨project.sound, project.alone, project.mirrored, project.entries⟩
  | check path kind => exact ((linked_lasts ties checker.options).checks path kind ⟨rfl, linked⟩).2

/-- Over any steps of a checker, signals stay linked to the paths that they were handed out for. -/
theorem linked_takeAll (linked : Cache.Linked Signalled Hears first checker.cache) :
    Cache.Linked Signalled Hears first (steps.foldl take checker).cache := by
  induction steps generalizing checker with
  | nil => exact linked
  | cons step steps inductionHypothesis => exact inductionHypothesis (linked_take linked)

/-- A new checker that is told of changes has an empty cache, which is linked. -/
theorem ofConfig_linked (disk : Disk) (environment : Environment) (config : Config) :
    let begun := ofConfig disk environment config (some {})
    Cache.Linked Signalled Hears begun.cache begun.cache := by
  intro begun
  have signalled : begun.cache.project.Signalled := ⟨{}, rfl, Signals.sound_empty⟩
  have founded : Cache.Linked Signalled Hears (Cache.founded begun.cache.project none)
      (Cache.founded begun.cache.project none) := Cache.founded_linked signalled none
  exact founded

/-- The checker when paths were told, as what the file system reports tells them. -/
theorem project_tellAll (told : List Text) (checker : Checker) :
    (told.foldl (fun checker path => (checker.notify path).2) checker).cache.project =
      told.foldl Directory.tell checker.cache.project := by
  induction told generalizing checker with
  | nil => rfl
  | cons path told inductionHypothesis =>
    obtain ⟨journal, one⟩ := checker.notify_told path
    rw [List.foldl_cons, List.foldl_cons, inductionHypothesis, one]

end Checker

/-- An entry watches a path: one of its tokens is a signal that is outstanding for the path. -/
def Entry.Watches (directory : Directory) (entry : Entry DirectoryToken) (path : Text) : Prop :=
  ∃ signals number, directory.signals = some signals ∧ (path, number) ∈ signals.outstanding ∧
    .signal number ∈ entry.tokens

namespace Links

variable {cache : Cache Directory DirectoryToken} {key path : Text} {paths : List Text}
  {entry : Entry DirectoryToken}

/-- An entry that is up to date watches the canonical paths that are recorded for its key. -/
theorem watches (links : Links (Hears cache.project) cache.dependents key entry.tokens paths)
    (current : entry.isExpired cache.project = false) :
    entry.Watches cache.project path ↔ path ∈ paths ∧ normalize path = some path := by
  constructor
  · rintro ⟨signals, number, stands, outstanding, member⟩
    obtain ⟨other, among, hears⟩ := exists_related links.tokens member
    cases normal : normalize other with
    | none => cases (hears_none normal).mp hears
    | some canonical =>
      obtain ⟨same, _, known, ⟨⟩, names⟩ := (hears_some normal).mp hears
      obtain rfl := Option.some.inj (stands.symm.trans known)
      obtain rfl := names.own path outstanding
      obtain rfl := links.settled other among path normal
      exact ⟨among, normal⟩
  · rintro ⟨among, canonical⟩
    obtain ⟨token, member, hears⟩ := exists_related links.tokens.flip among
    obtain ⟨signals, number, stands, rfl, names⟩ := (hears_some canonical).mp hears
    have quiet : cache.project.changed (.signal number) = false := entry.unchanged current member
    rw [changed_signal stands] at quiet
    obtain ⟨other, outstanding⟩ := Signals.fired_eq_false_iff.mp quiet
    obtain rfl := names.own other outstanding
    exact ⟨signals, number, stands, outstanding, member⟩

/-- An entry that is up to date goes out of date when paths are told exactly if one of them
concerns a path that the entry watches. -/
theorem expires (links : Links (Hears cache.project) cache.dependents key entry.tokens paths)
    (current : entry.isExpired cache.project = false) (told : List Text) :
    entry.isExpired (told.foldl Directory.tell cache.project) = true ↔
      ∃ changed ∈ told, ∃ path, entry.Watches cache.project path ∧
        Signals.concerns changed path = true := by
  have reports : entry.isExpired (told.foldl Directory.tell cache.project) = true ↔
      ∃ token ∈ entry.tokens, (told.foldl Directory.tell cache.project).changed token = true :=
    List.any_eq_true
  rw [reports]
  constructor
  · rintro ⟨token, member, changed⟩
    obtain ⟨other, among, hears⟩ := exists_related links.tokens member
    rcases (hears.changed_tellAll told).mp changed with
      before | ⟨path, tells, canonical, normal, concerned⟩
    · have quiet : cache.project.changed token = false := entry.unchanged current member
      rw [quiet] at before
      cases before
    · obtain rfl := links.settled other among canonical normal
      exact ⟨path, tells, canonical, (links.watches current).mpr ⟨among, normal⟩, concerned⟩
  · rintro ⟨path, tells, watched, watches, concerned⟩
    obtain ⟨among, canonical⟩ := (links.watches current).mp watches
    obtain ⟨token, member, related⟩ := exists_related links.tokens.flip among
    have hears : cache.project.Hears watched token := related
    refine ⟨token, member, (hears.changed_tellAll told).mpr (.inr ?_)⟩
    exact ⟨path, tells, watched, canonical, concerned⟩

/-- An entry of a key that leaves the root watches nothing. -/
theorem watches_inside
    (links : Links (Hears cache.project) cache.dependents key entry.tokens paths)
    (current : entry.isExpired cache.project = false) (watches : entry.Watches cache.project path) :
    ∃ canonical, normalize key = some canonical := by
  obtain ⟨among, canonical⟩ := (links.watches current).mp watches
  cases normal : normalize key with
  | none =>
    rw [links.outside normal path among] at canonical
    cases canonical
  | some own => exact ⟨own, rfl⟩

/-- A change of a path concerns the templates whose entries watch its canonical spelling. -/
theorem mem_dependentsOf_iff (mirrored : cache.dependents.Mirrored)
    (links : Links (Hears cache.project) cache.dependents key entry.tokens paths)
    (current : entry.isExpired cache.project = false) (changed : Text) :
    key ∈ cache.dependentsOf changed ↔
      ∃ path, entry.Watches cache.project path ∧ normalize changed = some path := by
  cases normal : normalize changed with
  | none =>
    have nothing : cache.dependentsOf changed = [] := by rw [Cache.dependentsOf, normal]
    rw [nothing]
    simp
  | some path =>
    have canonical := normalize_canonical normal
    rw [Cache.dependentsOf_spelled cache (normal.trans canonical.symm),
      Cache.mem_dependentsOf mirrored links canonical]
    simp only [Option.some.injEq]
    rw [exists_eq_right', links.watches current]
    exact (and_iff_left canonical).symm

end Links

namespace WatchRun

variable {run : WatchRun} {key : Text}

/-- What a change concerns depends on it, or is the changed path if nothing depends on it. -/
theorem mem_affectedBy {change : Change} (concerned : key ∈ run.affectedBy change) :
    ∃ changed, run.logical? change.path = some changed ∧
      (key ∈ run.checker.cache.dependentsOf changed ∨ key = changed) := by
  unfold affectedBy at concerned
  cases named : run.logical? change.path with
  | none =>
    rw [named] at concerned
    cases concerned
  | some changed =>
    simp only [named] at concerned
    refine ⟨changed, rfl, ?_⟩
    split at concerned
    · exact .inr (List.mem_singleton.mp concerned)
    · exact .inl concerned

/-- What depends on a change is concerned. -/
theorem affectedBy_of_dependent {change : Change} {changed : Text}
    (named : run.logical? change.path = some changed)
    (depends : key ∈ run.checker.cache.dependentsOf changed) : key ∈ run.affectedBy change := by
  have several : (run.checker.cache.dependentsOf changed).isEmpty = false := by
    rw [List.isEmpty_eq_false_iff]
    exact List.ne_nil_of_mem depends
  simp only [affectedBy, named, several, Bool.false_and, Bool.false_eq_true, ↓reduceIte]
  exact depends

/-- A batch affects what one of its changes affects. -/
theorem mem_affected {changes : List Change} : key ∈ run.affected changes ↔
    ∃ change ∈ changes, key ∈ run.affectedBy change := by
  simp only [affected, Text.mem_withoutRepeats, Text.mem_sort, List.mem_flatMap]

/-- A run that is told of changes begins with a new checker that is told. -/
theorem ofSession_checker {disk : Disk} {environment : Environment} {verbose pages : Bool}
    {session : Session} {status : StatusBlock} {first : WatchRun}
    (begun : ofSession disk environment verbose pages session status = some first)
    (notified : session.config.settings.watch.detection = .notify) :
    first.checker = Checker.ofConfig disk environment session.config (some {}) := by
  simp only [ofSession, notified] at begun
  split at begun
  · obtain rfl := Option.some.inj begun
    rfl
  · cases begun

/-- Which entries go out of date when the changes of a batch are told, and which of them are
among the templates that are checked again, whatever happened before: an entry goes out of date
if a change is of a path that it watches or of a directory above one, and it is checked again
if a change is of a path that it watches. -/
theorem affected_expired {disk : Disk} {environment : Environment} {verbose pages : Bool}
    {session : Session} {status : StatusBlock} {first : WatchRun}
    (begun : ofSession disk environment verbose pages session status = some first)
    (notified : session.config.settings.watch.detection = .notify) (steps : List Checker.Step)
    (changes : List Change) :
    let run := { first with checker := steps.foldl Checker.take first.checker }
    let directory := run.checker.cache.project
    let changed := changes.filterMap fun change => run.logical? change.path
    let told := changed.foldl (fun checker path => (checker.notify path).2) run.checker
    ∀ key entry, run.checker.cache.slot? key = some (.cached entry) →
      entry.isExpired directory = false →
        (entry.isExpired told.cache.project = true ↔ ∃ path ∈ changed, ∃ watched,
          entry.Watches directory watched ∧ Signals.concerns path watched = true) ∧
        (entry.isExpired told.cache.project = true → (key ∈ run.affected changes ↔
          ∃ path ∈ changed, ∃ watched,
            entry.Watches directory watched ∧ normalize path = some watched)) := by
  intro run directory changed told key entry stands current
  have linked : Cache.Linked Signalled Hears first.checker.cache run.checker.cache := by
    apply Checker.linked_takeAll
    rw [ofSession_checker begun notified]
    exact Checker.ofConfig_linked disk environment session.config
  have fresh : first.checker.cache.slot? key = none := by
    rw [ofSession_checker begun notified]
    rfl
  obtain ⟨paths, links⟩ := (linked.entries key entry stands).resolve_left (by rw [fresh]; nofun)
  have expires : entry.isExpired told.cache.project = true ↔ ∃ path ∈ changed, ∃ watched,
      entry.Watches directory watched ∧ Signals.concerns path watched = true := by
    rw [Checker.project_tellAll]
    exact links.expires current changed
  refine ⟨expires, fun expired => ?_⟩
  have depends := links.mem_dependentsOf_iff linked.mirrored current
  rw [mem_affected]
  constructor
  · rintro ⟨change, among, concerned⟩
    obtain ⟨path, named, depended | rfl⟩ := mem_affectedBy concerned
    · exact ⟨path, List.mem_filterMap.mpr ⟨change, among, named⟩, (depends path).mp depended⟩
    · -- The template itself was changed, so its entry watches the changed path.
      obtain ⟨_, _, watched, watches, _⟩ := expires.mp expired
      obtain ⟨canonical, normal⟩ := links.watches_inside current watches
      refine ⟨key, List.mem_filterMap.mpr ⟨change, among, named⟩, canonical, ?_, normal⟩
      exact (links.watches current).mpr ⟨links.own canonical normal, normalize_canonical normal⟩
  · rintro ⟨path, member, watches⟩
    obtain ⟨change, among, named⟩ := List.mem_filterMap.mp member
    exact ⟨change, among, affectedBy_of_dependent named ((depends path).mpr watches)⟩

/-- An import file appears beside a template that was checked. -/
theorem affected_expired_import :
    let environment : Environment := ⟨"/r", "/"⟩
    let config : Config :=
      { settings :=
          { compile := { defaultImports := ["@using A"] }, watch := { detection := .notify } }
        file := "/r/view.toml", directory := "/r", givenRoot := none }
    let disk := Disk.editAll {} [.write ["r", "Views", "a.cshtml"] (Utf8.encode "<p>") 1]
    let first : WatchRun :=
      { environment, verbose := false, pages := false, session := { config }, root := "/r"
        checker := Checker.ofConfig disk environment config (some {}), batch := { window := 300 } }
    let run := { first with
      checker := [Checker.Step.check "/Views/a.cshtml" .views].foldl Checker.take first.checker }
    let changes : List Change := [⟨"/r/Views/_ViewImports.cshtml", .created⟩]
    ofSession disk environment false false { config } {} = some first ∧
      ("/Views/a.cshtml" : Text) ∈ run.affected changes ∧
      ∃ entry, run.checker.cache.slot? "/Views/a.cshtml" = some (.cached entry) ∧
        entry.Watches run.checker.cache.project "/Views/_ViewImports.cshtml" := by
  intro environment config disk first run changes
  have begun : ofSession disk environment false false { config } {} = some first := rfl
  have affected : ("/Views/a.cshtml" : Text) ∈ run.affected changes := by decide +kernel
  have named : (changes.filterMap fun change => run.logical? change.path) =
      ["/Views/_ViewImports.cshtml"] := by
    decide +kernel
  have expires : run.checker.cache.hasEntry "/Views/a.cshtml" fun entry =>
      !entry.isExpired run.checker.cache.project &&
        entry.isExpired (run.checker.notify "/Views/_ViewImports.cshtml").2.cache.project := by
    decide +kernel
  obtain ⟨entry, stands, goes⟩ := Cache.exists_of_hasEntry expires
  obtain ⟨fresh, expired⟩ := Bool.and_eq_true_iff.mp goes
  have current : entry.isExpired run.checker.cache.project = false := by simpa using fresh
  let changed := changes.filterMap fun change => run.logical? change.path
  have listed : entry.isExpired (changed.foldl (fun checker path => (checker.notify path).2)
      run.checker).cache.project = true → (("/Views/a.cshtml" : Text) ∈ run.affected changes ↔
        ∃ path ∈ changed, ∃ watched, entry.Watches run.checker.cache.project watched ∧
          normalize path = some watched) :=
    (affected_expired begun rfl [.check "/Views/a.cshtml" .views] changes "/Views/a.cshtml" entry
      stands current).2
  simp only [changed, named] at listed
  obtain ⟨path, member, watched, watches, normal⟩ := (listed expired).mp affected
  obtain rfl := List.mem_singleton.mp member
  have canonical :
      normalize "/Views/_ViewImports.cshtml" = some "/Views/_ViewImports.cshtml" := by
    decide
  obtain rfl := Option.some.inj (normal.symm.trans canonical)
  exact ⟨begun, affected, entry, stands, watches⟩

/-- The directory of a template that was checked is removed: what is told of it leaves the entry
of the template out of date, and the template is not among those that are checked again. -/
theorem affected_directory :
    let environment : Environment := ⟨"/r", "/"⟩
    let config : Config :=
      { settings :=
          { compile := { defaultImports := ["@using A"] }, watch := { detection := .notify } }
        file := "/r/view.toml", directory := "/r", givenRoot := none }
    let disk := Disk.editAll {} [.write ["r", "Views", "a.cshtml"] (Utf8.encode "<p>") 1]
    let first : WatchRun :=
      { environment, verbose := false, pages := false, session := { config }, root := "/r"
        checker := Checker.ofConfig disk environment config (some {}), batch := { window := 300 } }
    let run := { first with
      checker := [Checker.Step.check "/Views/a.cshtml" .views].foldl Checker.take first.checker }
    let changes : List Change := [⟨"/r/Views", .removed⟩]
    ofSession disk environment false false { config } {} = some first ∧
      run.logical? "/r/Views" = some ("/Views" : Text) ∧
      (∃ entry, run.checker.cache.slot? "/Views/a.cshtml" = some (.cached entry) ∧
        entry.isExpired run.checker.cache.project = false ∧
        entry.isExpired (run.checker.notify "/Views").2.cache.project = true) ∧
      run.affected changes = [] := by
  intro environment config disk first run changes
  have expires : run.checker.cache.hasEntry "/Views/a.cshtml" fun entry =>
      !entry.isExpired run.checker.cache.project &&
        entry.isExpired (run.checker.notify "/Views").2.cache.project := by
    decide +kernel
  refine ⟨rfl, by decide +kernel, ?_, by decide +kernel⟩
  obtain ⟨entry, stands, goes⟩ := Cache.exists_of_hasEntry expires
  obtain ⟨current, expired⟩ := Bool.and_eq_true_iff.mp goes
  exact ⟨entry, stands, by simpa using current, expired⟩

end WatchRun

end ViewCompiler

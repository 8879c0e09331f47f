import ViewCompiler.Proofs.Disk.Spelling
import ViewCompiler.Proofs.Directory.Observing
import ViewCompiler.Proofs.WatchRun.Affected

/-!
# What becomes of a batch

A batch leaves the collection when it is attended to, and nothing in it is reported again. A
template whose entry went out of date by a change of a file in the batch is checked again, be it
among the templates that the batch concerns or because everything begins anew: a token of the entry
is about the file, so the path of the file is recorded for the template, and the change is told by
that path.

A batch that holds a configuration which cannot be loaded is the exception. It is only reported as
faulty, and the other changes in it are lost.
-/

namespace ViewCompiler

open Logical Directory

/-- An entry went out of date by a change of a file: one of its tokens is about the file and now
reports a change, which it did not before. -/
def Entry.ExpiredBy (before after : Directory) (entry : Entry DirectoryToken) (physical : Text) :
    Prop :=
  ∃ token ∈ entry.tokens, before.Observes physical token ∧ before.changed token = false ∧
    after.changed token = true

namespace Checker

variable {checker : Checker} {root key physical : Text} {entry : Entry DirectoryToken}
  {disk : Disk} {environment : Environment} {config : Config}

/-- Every entry has tokens of the paths that are recorded for its key, whether these look for
changes or are told. -/
def Tied (root : Text) (checker : Checker) : Prop :=
  ∃ first, (∀ key, first.slot? key = none) ∧
    Cache.Linked (Opened root) Minds first checker.cache

/-- A new checker is tied to the directory of its templates, since it has no entries. -/
theorem tied_ofConfig (disk : Disk) (environment : Environment) (config : Config)
    (detection : Detection) :
    (ofConfig disk environment config detection.signals).Tied
      (disk.canonical environment.cwd (config.templateRoot disk environment)) := by
  let root := disk.canonical environment.cwd (config.templateRoot disk environment)
  let project : Directory := { disk, root, signals := detection.signals }
  have opened : Opened root project := by
    cases detection with
    | notify => exact .signalled disk
    | poll => exact .probing disk
  have founded : Cache.Linked (Opened root) Minds (Cache.founded project none)
      (Cache.founded project none) := Cache.founded_linked opened none
  exact ⟨Cache.founded project none, fun _ => rfl, founded⟩

/-- Another project leaves a cache tied if what its tokens are about stays. -/
theorem Tied.withProject (tied : checker.Tied root) {cache : Cache Directory DirectoryToken}
    (slots : cache.slots = checker.cache.slots)
    (dependents : cache.dependents = checker.cache.dependents)
    (opened : Opened root checker.cache.project → Opened root cache.project)
    (keeps : ∀ physical token, checker.cache.project.Observes physical token →
      cache.project.Observes physical token) :
    ({ checker with cache } : Checker).Tied root := by
  obtain ⟨first, empty, linked⟩ := tied
  have after := opened linked.sound
  have same : cache.project.root = checker.cache.project.root :=
    after.sound.1.trans linked.sound.sound.1.symm
  have slot (key : Text) : cache.slot? key = checker.cache.slot? key := by
    rw [Cache.slot?, Cache.slot?, slots]
  refine ⟨first, empty, after, fun key => slot key ▸ linked.alone key,
    dependents ▸ linked.mirrored, ?_⟩
  intro key entry stands
  refine (linked.entries key entry (slot key ▸ stands)).imp_right ?_
  rintro ⟨paths, links⟩
  exact ⟨paths, dependents ▸ links.imp fun path token minds =>
    Minds.kept minds same fun physical => keeps physical token⟩

/-- Checks leave a cache tied. -/
theorem tied_lasts (absolute : Physical.isAbsolute root = true) : Lasts (Tied root) where
  checks {checker} path kind tied := by
    obtain ⟨first, empty, linked⟩ := tied
    exact ⟨first, empty,
      ((linked_lasts (ties_opened absolute) checker.options).checks path kind ⟨rfl, linked⟩).2⟩
  drains {checker} tied := by
    obtain ⟨first, empty, linked⟩ := tied
    exact ⟨first, empty, linked.sound, linked.alone, linked.mirrored, linked.entries⟩

/-- A template whose entry went out of date by a change of a file depends on the canonical path of
the file. -/
theorem Tied.depends (tied : checker.Tied root) (absolute : Physical.isAbsolute root = true)
    (stands : checker.cache.slot? key = some (.cached entry)) {after : Directory}
    (expired : entry.ExpiredBy checker.cache.project after physical) :
    ∃ canonical, Physical.toLogical root physical = some canonical ∧
      key ∈ checker.cache.dependentsOf canonical := by
  obtain ⟨first, empty, linked⟩ := tied
  obtain ⟨token, member, observes, unchanged, -⟩ := expired
  obtain ⟨paths, links⟩ := (linked.entries key entry stands).resolve_left (by rw [empty]; nofun)
  obtain ⟨path, among, minds⟩ := exists_related links.tokens member
  have same := linked.sound.sound.1
  obtain ⟨canonical, normal, below⟩ :=
    Minds.observed minds (same ▸ absolute) observes unchanged
  obtain rfl := links.settled path among canonical normal
  rw [same] at below
  exact ⟨canonical, below, (Cache.mem_dependentsOf linked.mirrored links normal).mpr among⟩

/-- A checker takes in what happens: every entry stands, and what is recorded of it. -/
structure Gathers (root : Text) (before after : Checker) : Prop where
  slots : after.cache.slots = before.cache.slots
  dependents : after.cache.dependents = before.cache.dependents
  tied : before.Tied root → after.Tied root

/-- What is taken in one after the other is taken in. -/
theorem Gathers.trans {before between after : Checker} (first : Gathers root before between)
    (second : Gathers root between after) : Gathers root before after :=
  ⟨second.slots.trans first.slots, second.dependents.trans first.dependents,
    fun tied => second.tied (first.tied tied)⟩

/-- A checker takes in another disk. -/
theorem gathers_onDisk (root : Text) (checker : Checker) (disk : Disk) :
    Gathers root checker (checker.onDisk disk) where
  slots := rfl
  dependents := rfl
  tied tied := tied.withProject rfl rfl (·.edit disk) fun _ token observes => by
    cases token <;> exact observes

/-- It takes in that a path is told. -/
theorem gathers_notify (root : Text) (checker : Checker) (path : Text) :
    Gathers root checker (checker.notify path).2 := by
  obtain ⟨journal, told⟩ := checker.notify_told path
  rw [told]
  exact ⟨rfl, rfl, fun tied =>
    tied.withProject rfl rfl (·.tell path) fun _ _ observes => observes.tell path⟩

/-- It takes in that what it gathered is fetched. -/
theorem gathers_drain (root : Text) (checker : Checker) : Gathers root checker checker.drain.2 where
  slots := rfl
  dependents := rfl
  tied tied := tied.withProject rfl rfl id fun _ _ observes => observes

/-- It takes in that several paths are told. -/
theorem gathers_notifyEach (root : Text) (told : List Text) (checker : Checker) :
    Gathers root checker (told.foldl (fun checker path => (checker.notify path).2) checker) := by
  induction told generalizing checker with
  | nil => exact ⟨rfl, rfl, id⟩
  | cons path told inductionHypothesis =>
    exact (gathers_notify root checker path).trans (inductionHypothesis _)

/-- All templates are found, and it is told by the options, the disk and the root which these
are. -/
theorem discover_congr {other : Checker} (options : other.options = checker.options)
    (disk : other.cache.project.disk = checker.cache.project.disk)
    (root : other.cache.project.root = checker.cache.project.root) (environment : Environment)
    (config : Config) :
    other.discover environment config [] = checker.discover environment config [] := by
  have found (base extension : Text) : other.cache.project.enumerate base extension =
      checker.cache.project.enumerate base extension :=
    enumerate_congr disk root base extension
  simp only [discover, List.isEmpty_nil, ↓reduceIte, arranged, isImport, inDirectories, options,
    found]

/-- Checking templates makes no difference to which templates are found. -/
theorem Tied.discovers_again (tied : checker.Tied root) (verbose progress : Bool)
    (jobs : List (Text × ImportsKind)) (environment : Environment) (config : Config) :
    (checker.checkAll verbose progress jobs).2.1.discover environment config [] =
      checker.discover environment config [] := by
  obtain ⟨first, -, linked⟩ := tied
  have ties : Project.Ties (Placed checker.cache.project.disk checker.cache.project.root)
      fun _ _ _ => True := {
    sound_asked := fun token placed => placed.asked token
    sound_issued := fun path placed => placed.issued path
    asked := fun _ _ _ => trivial
    issued := fun _ _ _ => trivial
    own := fun _ _ => trivial }
  have placed : Cache.Linked (Placed checker.cache.project.disk checker.cache.project.root)
      (fun _ _ _ => True) first checker.cache := by
    refine ⟨⟨rfl, rfl⟩, linked.alone, linked.mirrored, fun key entry stands => ?_⟩
    refine (linked.entries key entry stands).imp_right ?_
    rintro ⟨paths, links⟩
    exact ⟨paths, links.imp fun _ _ _ => trivial⟩
  obtain ⟨⟨options, after⟩, -⟩ :=
    checkAll_lasts (linked_lasts ties checker.options) ⟨rfl, placed⟩ verbose progress jobs
  exact discover_congr options after.sound.disk after.sound.root environment config

end Checker

namespace WatchRun

variable {run before after : WatchRun} {key physical : Text} {entry : Entry DirectoryToken}

/-- What happens to a run: the file system reports something, the run looks for itself, or it
attends to its batch if this is ready. -/
inductive Move
  | hear (disk : Disk) (now : Nat) (happening : Happening) (paths : List Text)
  | look (disk : Disk) (now : Nat)
  | tick (disk : Disk) (now : Nat) (clock : Text)

/-- The run after a move, unless it has ended. -/
def move (run : WatchRun) : Move → Option WatchRun
  | .hear disk now happening paths => some (run.hear disk now happening paths).2
  | .look disk now => some (run.look disk now).2
  | .tick disk now clock => (run.tick disk now clock).2

/-- A run as it is between its moves. -/
structure Settled (run : WatchRun) : Prop where
  working : Physical.isAbsolute run.environment.cwd = true
  absolute : Physical.isAbsolute run.root = true
  tied : run.checker.Tied run.root

/-- A run takes in what happens and attends to nothing. -/
structure Gathers (before after : WatchRun) : Prop where
  environment : after.environment = before.environment
  root : after.root = before.root
  checker : before.checker.Gathers before.root after.checker

/-- Nothing is taken in when nothing happens. -/
theorem Gathers.refl (run : WatchRun) : run.Gathers run := ⟨rfl, rfl, rfl, rfl, id⟩

/-- What is taken in one after the other is taken in. -/
theorem Gathers.trans {between : WatchRun} (first : before.Gathers between)
    (second : between.Gathers after) : before.Gathers after := by
  refine ⟨second.environment.trans first.environment, second.root.trans first.root, ?_⟩
  exact first.checker.trans (first.root ▸ second.checker)

/-- A run that takes in what happens stays settled. -/
theorem Settled.gathers (settled : before.Settled) (gathers : before.Gathers after) :
    after.Settled := by
  refine ⟨gathers.environment ▸ settled.working, gathers.root ▸ settled.absolute, ?_⟩
  rw [gathers.root]
  exact gathers.checker.tied settled.tied

/-- A run takes in another disk. -/
theorem gathers_onDisk (run : WatchRun) (disk : Disk) : run.Gathers (run.onDisk disk) :=
  ⟨rfl, rfl, Checker.gathers_onDisk run.root run.checker disk⟩

/-- It takes in what the file system reports. -/
theorem gathers_hear (run : WatchRun) (disk : Disk) (now : Nat) (happening : Happening)
    (paths : List Text) : run.Gathers (run.hear disk now happening paths).2 :=
  ⟨rfl, rfl, ((Checker.gathers_onDisk run.root run.checker disk).trans
    (Checker.gathers_notifyEach run.root _ _)).trans (Checker.gathers_drain run.root _)⟩

/-- It takes in what it finds when it looks for itself. -/
theorem gathers_look (run : WatchRun) (disk : Disk) (now : Nat) :
    run.Gathers (run.look disk now).2 := by
  refine List.foldlRecOn (motive := fun (said : Text × WatchRun) => run.Gathers said.2) _ _
    (run.gathers_onDisk disk) ?_
  rintro ⟨said, between⟩ gathers ⟨happening, place⟩ -
  simp only
  split
  · exact gathers.trans (between.gathers_hear disk now happening _)
  · exact gathers

/-- What checking templates again leaves of a run. -/
theorem recheck_shape (run : WatchRun) (clock : Text) (templates : List Text) :
    ∃ status, (run.recheck clock templates).2 = { run with
      checker := (run.checker.checkAll run.verbose false (Checker.jobsOf templates run.pages)).2.1
      status } := by
  unfold recheck showing
  simp only
  split <;> exact ⟨_, rfl⟩

/-- A run stays settled when it checks templates again. -/
theorem Settled.recheck (settled : run.Settled) (clock : Text) (templates : List Text) :
    (run.recheck clock templates).2.Settled := by
  obtain ⟨status, shape⟩ := run.recheck_shape clock templates
  rw [shape]
  exact ⟨settled.working, settled.absolute, (Checker.checkAll_lasts
    (Checker.tied_lasts settled.absolute) settled.tied run.verbose false _).1⟩

/-- All templates are checked again that are found. -/
theorem recheckAll_discovers (run : WatchRun) (clock : Text) :
    ∃ templates, run.checker.discover run.environment run.config [] = .ok templates ∧
      run.recheckAll clock = run.recheck clock templates :=
  ⟨_, rfl, rfl⟩

/-- What a batch concerns is checked again. -/
theorem recheckAffected_cases (run : WatchRun) (clock : Text) (changes : List Change) :
    (run.affected changes = [] ∧
      ∃ status, (run.recheckAffected clock changes).2 = { run with status }) ∨
    ∃ said, run.recheckAffected clock changes =
      (said ++ (run.recheck clock (run.affected changes)).1,
        (run.recheck clock (run.affected changes)).2) := by
  unfold recheckAffected
  cases run.affected changes with
  | nil => exact .inl ⟨rfl, _, rfl⟩
  | cons first more => exact .inr ⟨_, rfl⟩

/-- A run begins with an empty cache. -/
theorem ofSession_settled {disk : Disk} {environment : Environment} {verbose pages : Bool}
    {session : Session} {status : StatusBlock}
    (working : Physical.isAbsolute environment.cwd = true)
    (begun : ofSession disk environment verbose pages session status = some run) :
    run.Settled ∧ run.checker.disk = disk := by
  unfold ofSession at begun
  simp only at begun
  split at begun
  · obtain rfl := Option.some.inj begun
    exact ⟨⟨working, disk.isAbsolute_canonical working _,
      Checker.tied_ofConfig disk environment session.config _⟩, rfl⟩
  · cases begun

/-- A template is among those that are checked again on a disk; this is said, and the run is this
one then. -/
def Rechecks (disk : Disk) (clock key said : Text) (next : WatchRun) : Prop :=
  ∃ (begun : WatchRun) (templates : List Text) (before : Text), begun.checker.disk = disk ∧
    key ∈ templates ∧ said = before ++ (begun.recheck clock templates).1 ∧
    next = (begun.recheck clock templates).2

/-- More may be said before. -/
theorem Rechecks.prepend {disk : Disk} {clock said : Text} {next : WatchRun}
    (rechecks : Rechecks disk clock key said next) (words : Text) :
    Rechecks disk clock key (words ++ said) next := by
  obtain ⟨begun, templates, first, sees, member, rfl, rfl⟩ := rechecks
  exact ⟨begun, templates, words ++ first, sees, member, (List.append_assoc _ _ _).symm, rfl⟩

/-- A run that begins anew has checked every template again that is found. -/
theorem Settled.renew (settled : run.Settled) {disk : Disk} {clock said : Text} {session : Session}
    {next : WatchRun} (renewed : run.renew disk clock session = (said, some next)) :
    next.Settled ∧ ∀ found, next.checker.discover next.environment next.config [] = .ok found →
      ∀ key ∈ found, Rechecks disk clock key said next := by
  unfold WatchRun.renew at renewed
  cases begins : ofSession disk run.environment run.verbose run.pages session run.status with
  | none =>
    rw [begins] at renewed
    cases renewed
  | some begun =>
    obtain ⟨fresh, sees⟩ := ofSession_settled settled.working begins
    obtain ⟨templates, all, checked⟩ := begun.recheckAll_discovers clock
    obtain ⟨status, shape⟩ := begun.recheck_shape clock templates
    simp only [begins, checked] at renewed
    cases renewed
    refine ⟨fresh.recheck clock templates, ?_⟩
    intro found discovered key member
    have again := fresh.tied.discovers_again begun.verbose false
      (Checker.jobsOf templates begun.pages) begun.environment begun.config
    rw [shape] at discovered
    obtain rfl : found = templates := Except.ok.inj (discovered.symm.trans (again.trans all))
    exact ⟨begun, found, _, sees, member, rfl, rfl⟩

/-- A run stays settled when it checks what a batch affects. -/
theorem Settled.recheckAffected (settled : run.Settled) (clock : Text) (changes : List Change) :
    (run.recheckAffected clock changes).2.Settled := by
  rcases run.recheckAffected_cases clock changes with ⟨-, status, shape⟩ | ⟨words, shape⟩
  · rw [shape]
    exact ⟨settled.working, settled.absolute, settled.tied⟩
  · rw [shape]
    exact settled.recheck clock _

/-- A batch holds the configuration, and this cannot be loaded. -/
def Refuses (run : WatchRun) (disk : Disk) (changes : List Change) : Prop :=
  changes.any run.isConfigChange = true ∧
    ∃ fault, (run.session.reload disk run.environment).1 = .error fault

/-- Attending to a batch reports a configuration that cannot be loaded, begins anew with another
one, or checks again what the batch concerns. -/
theorem attend_cases {begun : WatchRun} {disk : Disk} (looks : run.onDisk disk = begun)
    (clock : Text) (changes : List Change) :
    (begun.Refuses disk changes ∧
      ∃ said status, run.attend disk clock changes = (said, some { begun with status })) ∨
    (¬ begun.Refuses disk changes ∧
      ((∃ said session, run.attend disk clock changes =
          (said ++ (begun.renew disk clock session).1, (begun.renew disk clock session).2)) ∨
        run.attend disk clock changes =
          ((begun.recheckAffected clock changes).1,
            some (begun.recheckAffected clock changes).2))) := by
  unfold attend
  simp only [looks]
  by_cases configured : changes.any begun.isConfigChange = true
  · rw [if_pos configured]
    rcases reloaded : begun.session.reload disk begun.environment with ⟨answer, session, notices⟩
    cases answer with
    | error fault => exact .inl ⟨⟨configured, fault, by rw [reloaded]⟩, _, _, rfl⟩
    | ok updated =>
      have loads : ¬ begun.Refuses disk changes := by
        rintro ⟨-, fault, refused⟩
        rw [reloaded] at refused
        cases refused
      cases updated with
      | true => exact .inr ⟨loads, .inl ⟨_, session, rfl⟩⟩
      | false => exact .inr ⟨loads, .inr rfl⟩
  · rw [if_neg configured]
    exact .inr ⟨fun refuses => configured refuses.1, .inr rfl⟩

/-- A run that goes on after a batch is settled. -/
theorem Settled.attend (settled : run.Settled) {disk : Disk} {clock said : Text}
    {changes : List Change} {next : WatchRun}
    (attended : run.attend disk clock changes = (said, some next)) : next.Settled := by
  have begun := settled.gathers (run.gathers_onDisk disk)
  rcases attend_cases (Eq.refl (run.onDisk disk)) clock changes with
    ⟨-, text, status, same⟩ | ⟨-, ⟨text, session, same⟩ | same⟩ <;> rw [same] at attended
  · cases attended
    exact ⟨begun.working, begun.absolute, begun.tied⟩
  · obtain ⟨-, renewed⟩ := Prod.mk.inj attended
    exact (begun.renew (Prod.ext rfl renewed)).1
  · cases attended
    exact begun.recheckAffected clock changes

/-- Every move leaves a run settled, unless it ends the run. -/
theorem Settled.move (settled : before.Settled) {move : Move}
    (moved : before.move move = some after) : after.Settled := by
  cases move with
  | hear disk now happening paths =>
    cases moved
    exact settled.gathers (before.gathers_hear disk now happening paths)
  | look disk now =>
    cases moved
    exact settled.gathers (before.gathers_look disk now)
  | tick disk now clock =>
    have ticked : before.tick disk now clock = ((before.tick disk now clock).1, some after) :=
      Prod.ext rfl moved
    unfold tick at ticked
    split at ticked
    · cases ticked
      exact settled
    · rename_i changes batch taken
      have begun : ({ before with batch } : WatchRun).Settled :=
        ⟨settled.working, settled.absolute, settled.tied⟩
      exact begun.attend ticked

/-- All moves together leave a run settled, unless they end it. -/
theorem Settled.moves {moves : List Move} (settled : before.Settled)
    (moved : moves.foldlM WatchRun.move before = some after) : after.Settled := by
  induction moves generalizing before with
  | nil =>
    cases moved
    exact settled
  | cons move moves inductionHypothesis =>
    obtain ⟨between, first, further⟩ := Option.bind_eq_some_iff.mp moved
    exact inductionHypothesis (settled.move first) further

/-- One run comes to be another by moves at which it attends to nothing, because it does not come
to that or because its batch is not ready. -/
inductive Waits (before : WatchRun) : WatchRun → Prop
  | start : Waits before before
  | move {run after : WatchRun} (earlier : Waits before run) (move : Move)
      (unready : ∀ disk now clock, move = .tick disk now clock → run.batch.isReady now = false)
      (moved : run.move move = some after) : Waits before after

/-- A run that waits takes in what happens and does nothing else. -/
theorem Waits.gathers (waits : before.Waits after) : before.Gathers after := by
  induction waits with
  | start => exact .refl before
  | @move run after earlier move unready moved inductionHypothesis =>
    refine inductionHypothesis.trans ?_
    cases move with
    | hear disk now happening paths =>
      cases moved
      exact run.gathers_hear disk now happening paths
    | look disk now =>
      cases moved
      exact run.gathers_look disk now
    | tick disk now clock =>
      have untaken : run.batch.take? now = (none, run.batch) := by
        rw [Batch.take?, unready disk now clock rfl]
        rfl
      rw [WatchRun.move, tick, untaken] at moved
      cases moved
      exact .refl run

/-- A run is settled from its start, if the working directory is an absolute path. -/
theorem start_settled {disk : Disk} {environment : Environment} {verbose pages : Bool}
    {clock said : Text} {session : Session}
    (working : Physical.isAbsolute environment.cwd = true)
    (started : start disk environment verbose pages clock session = some (said, run)) :
    run.Settled := by
  unfold start at started
  obtain ⟨begun, begins, same⟩ := Option.map_eq_some_iff.mp started
  obtain ⟨templates, -, checked⟩ := begun.recheckAll_discovers clock
  simp only [checked] at same
  cases same
  exact (ofSession_settled working begins).1.recheck clock templates

/-- A change of the file of a physical path is known by its logical path. -/
theorem Settled.logical? (settled : run.Settled) {path canonical : Text}
    (same : Physical.components (run.checker.disk.canonical run.environment.cwd path) =
      Physical.components physical)
    (below : Physical.toLogical run.root physical = some canonical) :
    run.logical? path = some canonical := by
  have also : Physical.toLogical run.root
      (run.checker.disk.canonical run.environment.cwd path) = some canonical := by
    rw [Physical.toLogical_congr same, below]
  rw [WatchRun.logical?, also]
  cases own : Physical.toLogical run.root path with
  | none => rfl
  | some logical =>
    rw [Disk.toLogical_canonical settled.working settled.absolute own also]
    rfl

/-- What a batch concerns includes each template whose entry went out of date by a change of a file
in the batch. -/
theorem Settled.affected (settled : before.Settled) (gathers : before.Gathers run)
    (stands : before.checker.cache.slot? key = some (.cached entry)) {later : Directory}
    (expired : entry.ExpiredBy before.checker.cache.project later physical)
    {changes : List Change} {change : Change} (among : change ∈ changes)
    (same : Physical.components (run.checker.disk.canonical run.environment.cwd change.path) =
      Physical.components physical) : key ∈ run.affected changes := by
  obtain ⟨canonical, below, depends⟩ := settled.tied.depends settled.absolute stands expired
  refine mem_affected.mpr ⟨change, among, affectedBy_of_dependent
    ((settled.gathers gathers).logical? same (gathers.root ▸ below)) ?_⟩
  rw [Cache.dependentsOf] at depends ⊢
  rw [gathers.checker.dependents]
  exact depends

/-- What becomes of the templates whose entries went out of date by changes of a batch, whatever
happened before. If the batch holds the configuration and this cannot be loaded, their entries
stand as they were and stay out of date. Otherwise, as long as the run goes on, each of them that
is still found is checked again. -/
theorem batch_attended {disk : Disk} {environment : Environment} {verbose pages : Bool}
    {clock said : Text} {session : Session} {first : WatchRun} {moves : List Move}
    {now : Nat} {changes : List Change} {batch : Batch}
    (working : Physical.isAbsolute environment.cwd = true)
    (started : start disk environment verbose pages clock session = some (said, first))
    (moved : moves.foldlM move first = some before)
    (waits : before.Waits run)
    (taken : run.batch.take? now = (some changes, batch)) (seen : Disk) (stamp : Text) :
    let begun := { run.onDisk seen with batch }
    ∀ key entry physical, ∀ change ∈ changes,
      before.checker.cache.slot? key = some (.cached entry) →
      entry.ExpiredBy before.checker.cache.project begun.checker.cache.project physical →
      Physical.components (seen.canonical run.environment.cwd change.path) =
        Physical.components physical →
      (begun.Refuses seen changes →
        begun.batch.changes = [] ∧ begun.checker.cache.slot? key = some (.cached entry) ∧
          entry.isExpired begun.checker.cache.project = true ∧
          ∃ text status, run.tick seen now stamp = (text, some { begun with status })) ∧
      (¬ begun.Refuses seen changes → ∀ text next,
        run.tick seen now stamp = (text, some next) →
        ∀ found, next.checker.discover next.environment next.config [] = .ok found →
          key ∈ found → Rechecks seen stamp key text next) := by
  intro begun key entry physical change among stands expired same
  have settled : before.Settled := (start_settled working started).moves moved
  have gathers : before.Gathers begun := by
    have looked := waits.gathers.trans (run.gathers_onDisk seen)
    exact ⟨looked.environment, looked.root, looked.checker⟩
  have ticked : run.tick seen now stamp =
      ({ run with batch } : WatchRun).attend seen stamp changes := by
    rw [tick, taken]
  have emptied : batch.changes = [] := by
    unfold Batch.take? at taken
    split at taken
    · cases taken
      rfl
    · cases taken
  have kept : begun.checker.cache.slot? key = some (.cached entry) := by
    rw [Cache.slot?, gathers.checker.slots]
    exact stands
  have outdated : entry.isExpired begun.checker.cache.project = true := by
    obtain ⟨token, member, -, -, changed⟩ := expired
    exact List.any_eq_true.mpr ⟨token, member, changed⟩
  have looks : ({ run with batch } : WatchRun).onDisk seen = begun := rfl
  rcases attend_cases looks stamp changes with
    ⟨refuses, text, status, attended⟩ | ⟨loads, ⟨words, renewal, attended⟩ | attended⟩
  · refine ⟨fun _ => ⟨emptied, kept, outdated, text, status, ticked.trans attended⟩, ?_⟩
    exact fun loads => absurd refuses loads
  · refine ⟨fun refuses => absurd refuses loads, ?_⟩
    intro _ text next done found discovered member
    rw [ticked, attended] at done
    obtain ⟨rfl, renewed⟩ := Prod.mk.inj done
    have checked := ((settled.gathers gathers).renew (Prod.ext rfl renewed)).2
    exact (checked found discovered key member).prepend words
  · refine ⟨fun refuses => absurd refuses loads, ?_⟩
    intro _ text next done found discovered member
    rw [ticked, attended] at done
    have concerned : key ∈ begun.affected changes :=
      settled.affected gathers stands expired among same
    rcases begun.recheckAffected_cases stamp changes with ⟨none, -⟩ | ⟨further, shape⟩
    · rw [none] at concerned
      cases concerned
    · rw [shape] at done
      cases done
      exact ⟨begun, begun.affected changes, further, rfl, concerned, rfl, rfl⟩

/-- A template is modified. -/
theorem batch_attended_modified :
    let environment : Environment := ⟨"/r", "/"⟩
    let config : Config :=
      { settings := { compile := { defaultImports := ["@using A"] } }
        file := "/r/view.toml", directory := "/r", givenRoot := none }
    let disk := Disk.editAll {} [.write ["r", "a.cshtml"] (Utf8.encode "<p>") 1]
    let seen := disk.edit (.write ["r", "a.cshtml"] (Utf8.encode "<b>") 2)
    ∃ said first text next,
      start disk environment false false [] { config } = some (said, first) ∧
      (first.look seen 0).2.tick seen 1000 [] = (text, some next) ∧
      Rechecks seen [] "/a.cshtml" text next := by
  intro environment config disk seen
  have shape : ((start disk environment false false [] { config }).any fun begun =>
      let first := begun.2
      let run := (first.look seen 0).2
      let before := first.checker.cache.project
      (first.checker.cache.hasEntry "/a.cshtml" fun entry => entry.tokens.contains (.probe 0)) &&
        before.probes[0]?.any (fun probe => decide (probe.path = ("/r/a.cshtml" : Text))) &&
        !before.changed (.probe 0) && (run.onDisk seen).checker.cache.project.changed (.probe 0) &&
        decide ((run.batch.take? 1000).1 = some [⟨"/r/a.cshtml", .modified⟩]) &&
        decide (Physical.components (seen.canonical run.environment.cwd "/r/a.cshtml") =
          Physical.components "/r/a.cshtml") &&
        !([⟨"/r/a.cshtml", .modified⟩] : List Change).any (run.onDisk seen).isConfigChange &&
        (run.tick seen 1000 []).2.any fun next =>
          decide (next.checker.discover next.environment next.config [] = .ok ["/a.cshtml"])) =
      true := by
    decide +kernel
  obtain ⟨⟨said, first⟩, started, test⟩ := (Option.any_eq_true _ _).mp shape
  simp only [Bool.and_eq_true, decide_eq_true_eq, Bool.not_eq_true'] at test
  obtain ⟨⟨⟨⟨⟨⟨⟨cached, about⟩, unchanged⟩, changed⟩, taken⟩, same⟩, other⟩, ends⟩ := test
  obtain ⟨entry, stands, member⟩ := Cache.exists_of_hasEntry cached
  obtain ⟨probe, placed, path⟩ := (Option.any_eq_true _ _).mp about
  obtain ⟨next, goes, found⟩ := (Option.any_eq_true _ _).mp ends
  have expired : entry.ExpiredBy first.checker.cache.project
      ((first.look seen 0).2.onDisk seen).checker.cache.project "/r/a.cshtml" :=
    ⟨.probe 0, by simpa using member, ⟨probe, placed, of_decide_eq_true path⟩, unchanged,
      changed⟩
  have ticked : (first.look seen 0).2.tick seen 1000 [] =
      (((first.look seen 0).2.tick seen 1000 []).1, some next) := Prod.ext rfl goes
  refine ⟨said, first, _, next, started, ticked, ?_⟩
  have moved : ([] : List Move).foldlM move first = some first := rfl
  have waits : first.Waits (first.look seen 0).2 := .move .start (.look seen 0) nofun rfl
  obtain ⟨-, checked⟩ := batch_attended (by decide) started moved waits
    (Prod.ext taken rfl) seen [] "/a.cshtml" entry "/r/a.cshtml" ⟨"/r/a.cshtml", .modified⟩
    List.mem_cons_self stands expired same
  refine checked ?_ _ next ticked ["/a.cshtml"] (of_decide_eq_true found) List.mem_cons_self
  rintro ⟨configured, -⟩
  exact Bool.false_ne_true (other.symm.trans configured)

/-- The configuration is itself a template, and what is written over it is no text. Its entry goes
out of date and stays so, and nothing is checked. -/
theorem batch_dropped :
    let environment : Environment := ⟨"/r", "/"⟩
    let config : Config :=
      { settings :=
          { project := { extensions := ["toml"] }, compile := { defaultImports := ["@using A"] } }
        file := "/r/view.toml", directory := "/r", givenRoot := none }
    let disk := Disk.editAll {} [.write ["r", "view.toml"] [] 1]
    let seen := disk.edit (.write ["r", "view.toml"] [255] 2)
    ∃ said first text next,
      start disk environment false false [] { config } = some (said, first) ∧
      (first.look seen 0).2.tick seen 1000 [] = (text, some next) ∧
      ((first.look seen 0).2.batch.take? 1000).1 = some [⟨"/r/view.toml", .modified⟩] ∧
      next.checker.discover next.environment next.config [] = .ok ["/view.toml"] ∧
      (first.checker.cache.hasEntry "/view.toml" fun entry =>
        !entry.isExpired first.checker.cache.project) = true ∧
      (next.checker.cache.hasEntry "/view.toml" fun entry =>
        entry.isExpired next.checker.cache.project) = true ∧
      next.checker.cache.stats = first.checker.cache.stats ∧ next.batch.changes = [] := by
  intro environment config disk seen
  have shape : ((start disk environment false false [] { config }).any fun begun =>
      let first := begun.2
      let run := (first.look seen 0).2
      (run.tick seen 1000 []).2.any fun next =>
        decide ((run.batch.take? 1000).1 = some [⟨"/r/view.toml", .modified⟩]) &&
        decide (next.checker.discover next.environment next.config [] = .ok ["/view.toml"]) &&
        (first.checker.cache.hasEntry "/view.toml" fun entry =>
          !entry.isExpired first.checker.cache.project) &&
        (next.checker.cache.hasEntry "/view.toml" fun entry =>
          entry.isExpired next.checker.cache.project) &&
        decide (next.checker.cache.stats = first.checker.cache.stats) &&
        decide (next.batch.changes = [])) = true := by
    decide +kernel
  obtain ⟨⟨said, first⟩, started, ends⟩ := (Option.any_eq_true _ _).mp shape
  obtain ⟨next, goes, test⟩ := (Option.any_eq_true _ _).mp ends
  simp only [Bool.and_eq_true, decide_eq_true_eq] at test
  obtain ⟨⟨⟨⟨⟨taken, found⟩, current⟩, expired⟩, same⟩, emptied⟩ := test
  exact ⟨said, first, _, next, started, Prod.ext rfl goes, taken, found, current, expired, same,
    emptied⟩

end WatchRun

end ViewCompiler

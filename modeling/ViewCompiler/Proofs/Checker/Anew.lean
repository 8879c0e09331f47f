import ViewCompiler.Proofs.Checker.Answers
import ViewCompiler.Proofs.Directory.Probing
import ViewCompiler.Proofs.Directory.Signalling

/-!
# Checking as if for the first time

A checker that has seen any changes of the disk and checked any templates reports on a template
what a new checker reports on the disk as it is. Nothing that is up to date is compiled again, so
this is where it matters that tokens report changes: a checker that looks for changes has to tell
contents apart by their stamps and digests, and one that is told has to be told of every change
before it is asked again.

A checker resolves its root once, when it is made, and a new one resolves it anew. They agree as
long as both roots name the same directory, which is always so for a root that does not climb.
-/

namespace ViewCompiler

/-- The signals that a checker begins with. -/
def Detection.signals : Detection → Option Signals
  | .notify => some {}
  | .poll => none

namespace Checker

open Directory

/-- What happens to a checker: the disk changes, it is told that a path changed, or it is asked
for a template. -/
inductive Step
  | edit (change : Disk.Edit)
  | tell (path : Text)
  | check (path : Text) (kind : ImportsKind)

namespace Step

/-- A step that can happen: changes are made at places that names lead to, paths have no line
feed, and every key is asked for with one kind of imports. -/
def Admitted (kindOf : Text → ImportsKind) : Step → Prop
  | .edit change => ∀ name ∈ change.place, Physical.IsName name
  | .tell _ => True
  | .check path kind => kindOf (Logical.stripAppRoot path) = kind ∧ '\n' ∉ path

instance (kindOf : Text → ImportsKind) (step : Step) : Decidable (step.Admitted kindOf) :=
  match step with
  | .edit change => inferInstanceAs (Decidable (∀ name ∈ change.place, Physical.IsName name))
  | .tell _ => inferInstanceAs (Decidable True)
  | .check path kind =>
    inferInstanceAs (Decidable (kindOf (Logical.stripAppRoot path) = kind ∧ '\n' ∉ path))

/-- The paths that are told before anything is asked again. -/
def coming : List Step → List Text
  | .tell path :: steps => path :: coming steps
  | .edit _ :: steps => coming steps
  | _ => []

/-- Before anything is asked again after a change, its logical path is told, or the path of a
directory that leads there. -/
def EachTold (root : Text) : List Step → Prop
  | [] => True
  | .edit change :: steps =>
    (∃ logical, Physical.toLogical root (Disk.pathOf change.place) = some logical ∧
      ∃ told ∈ coming steps, Logical.Leads told logical) ∧ EachTold root steps
  | _ :: steps => EachTold root steps

/-- The disk after a step. -/
def onDisk (disk : Disk) : Step → Disk
  | .edit change => disk.edit change
  | _ => disk

/-- The disks that there are in the course of a run. -/
def disksOf (disk : Disk) : List Step → List Disk
  | [] => [disk]
  | step :: steps => disk :: disksOf (step.onDisk disk) steps

/-- What it takes to detect every change: contents are told apart by what is looked at, or each
change is told. -/
def Detectable (detection : Detection) (disk : Disk) (root : Text) (steps : List Step) : Prop :=
  match detection with
  | .poll => Disk.Telling (disksOf disk steps)
  | .notify => EachTold root steps

/-- A step leaves every directory of the disk in its parent. -/
theorem rooted_onDisk {disk : Disk} (rooted : disk.Rooted) (step : Step) :
    (step.onDisk disk).Rooted := by
  cases step with
  | edit change => exact rooted.edit change
  | tell path => exact rooted
  | check path kind => exact rooted

/-- So do many steps. -/
theorem rooted_foldl {disk : Disk} (rooted : disk.Rooted) (steps : List Step) :
    (steps.foldl onDisk disk).Rooted :=
  List.foldlRecOn steps onDisk rooted fun _ known step _ => rooted_onDisk known step

/-- The first disk of a run is among its disks. -/
theorem mem_disksOf (disk : Disk) (steps : List Step) : disk ∈ disksOf disk steps := by
  cases steps with
  | nil => exact List.mem_cons_self
  | cons step steps => exact List.mem_cons_self

/-- So is the last one. -/
theorem last_mem_disksOf (disk : Disk) (steps : List Step) :
    steps.foldl onDisk disk ∈ disksOf disk steps := by
  induction steps generalizing disk with
  | nil => exact List.mem_cons_self
  | cons step steps inductionHypothesis => exact List.mem_cons_of_mem _ (inductionHypothesis _)

end Step

/-- The checker after a step. -/
def take (checker : Checker) : Step → Checker
  | .edit change => checker.onDisk (checker.disk.edit change)
  | .tell path => (checker.notify path).2
  | .check path kind => (checker.check path kind).2

variable {checker : Checker} {kindOf : Text → ImportsKind} {root : Text} {disks : List Disk}
  {step : Step} {steps : List Step}

/-- Telling a path tells the directory, and leaves everything else but the journal. -/
theorem notify_told (checker : Checker) (path : Text) : ∃ journal, (checker.notify path).2 =
    { checker with
      cache := { checker.cache with project := checker.cache.project.tell path, journal } } := by
  unfold notify Directory.tell
  cases stands : checker.cache.project.signals with
  | none =>
    have same : { checker.cache.project with signals := none } = checker.cache.project := by
      rw [← stands]
    refine ⟨checker.cache.journal, ?_⟩
    rw [Option.map_none, same]
  | some signals => exact ⟨_, rfl⟩

/-- A checker that looks for changes on the disks of a run, with entries that are vouched for. -/
def Looking (disks : List Disk) (root : Text) (kindOf : Text → ImportsKind) (checker : Checker) :
    Prop :=
  checker.cache.VouchedFor (fun directory => Placed checker.disk root directory ∧
    directory.signals = none) (Recalls disks) checker.options kindOf

/-- A checker that is told of changes, with entries that are vouched for once everything is told
that is to come. -/
def Listening (coming : List Text) (root : Text) (kindOf : Text → ImportsKind) (checker : Checker) :
    Prop :=
  checker.cache.VouchedFor (fun directory => Placed checker.disk root directory ∧
    directory.Signalled) (Awaits coming) checker.options kindOf

/-- Whatever happens to a checker that looks for changes, its entries remain vouched for. -/
theorem Looking.take (looking : checker.Looking disks root kindOf) (telling : Disk.Telling disks)
    (known : checker.disk ∈ disks) (admitted : step.Admitted kindOf)
    (inName : ∀ kind, '\n' ∉ checker.options.importName kind) :
    (checker.take step).Looking disks root kindOf ∧
      (checker.take step).options = checker.options ∧
      (checker.take step).disk = step.onDisk checker.disk := by
  obtain ⟨placed, unsignalled⟩ := looking.sound
  cases step with
  | edit change =>
    refine ⟨?_, rfl, rfl⟩
    exact looking.kept rfl ⟨⟨rfl, placed.root⟩, unsignalled⟩
      fun _ _ _ recalls => recalls.onDisk (checker.disk.edit change)
  | tell path =>
    obtain ⟨journal, told⟩ := checker.notify_told path
    rw [Checker.take, told]
    refine ⟨looking.kept rfl ⟨⟨rfl, placed.root⟩, ?_⟩ ?_, rfl, rfl⟩
    · rw [Directory.tell, unsignalled]
      rfl
    · intro content path token recalls
      exact recalls.kept rfl fun _ probe stands => ⟨probe, stands, rfl, id⟩
  | check path kind =>
    obtain ⟨-, options, kept⟩ := check_vouched (probes_vouch telling known root) looking admitted.1
      admitted.2 (inName kind)
    have still : (checker.take (.check path kind)).disk = checker.disk := kept.sound.1.disk
    refine ⟨?_, options, still⟩
    rw [← options, ← still] at kept
    exact kept

/-- So do those of a checker that is told. -/
theorem Listening.take
    (listening : checker.Listening (Step.coming (step :: steps)) root kindOf)
    (told : Step.EachTold root (step :: steps)) (rooted : checker.disk.Rooted)
    (absolute : Physical.isAbsolute root = true) (admitted : step.Admitted kindOf)
    (inName : ∀ kind, '\n' ∉ checker.options.importName kind) :
    (checker.take step).Listening (Step.coming steps) root kindOf ∧
      (checker.take step).options = checker.options ∧
      (checker.take step).disk = step.onDisk checker.disk := by
  obtain ⟨placed, signalled⟩ := listening.sound
  cases step with
  | edit change =>
    refine ⟨?_, rfl, rfl⟩
    obtain ⟨⟨logical, below, path, comes, leads⟩, -⟩ := told
    rw [← placed.root] at below absolute
    exact listening.kept rfl ⟨⟨rfl, placed.root⟩, signalled⟩
      fun _ _ _ awaits => awaits.edit rooted absolute admitted below comes leads
  | tell path =>
    obtain ⟨journal, told⟩ := checker.notify_told path
    rw [Checker.take, told]
    refine ⟨listening.kept rfl ⟨⟨rfl, placed.root⟩, signalled.tell path⟩ ?_, rfl, rfl⟩
    intro content other token awaits
    exact awaits.tell
  | check path kind =>
    obtain ⟨-, options, kept⟩ := check_vouched (signals_vouch checker.disk root) listening
      admitted.1 admitted.2 (inName kind)
    have still : (checker.take (.check path kind)).disk = checker.disk := kept.sound.1.disk
    refine ⟨?_, options, still⟩
    rw [← options] at kept
    refine kept.kept rfl ⟨⟨rfl, kept.sound.1.root⟩, kept.sound.2⟩ ?_
    intro content other token awaits
    exact awaits.mono nofun

/-- A run leaves the entries of a checker that looks for changes vouched for. -/
theorem Looking.takeAll (looking : checker.Looking disks root kindOf) (telling : Disk.Telling disks)
    (known : ∀ disk ∈ Step.disksOf checker.disk steps, disk ∈ disks)
    (admitted : ∀ step ∈ steps, step.Admitted kindOf)
    (inName : ∀ kind, '\n' ∉ checker.options.importName kind) :
    (steps.foldl Checker.take checker).Looking disks root kindOf ∧
      (steps.foldl Checker.take checker).options = checker.options ∧
      (steps.foldl Checker.take checker).disk = steps.foldl Step.onDisk checker.disk := by
  induction steps generalizing checker with
  | nil => exact ⟨looking, rfl, rfl⟩
  | cons step steps inductionHypothesis =>
    obtain ⟨own, further⟩ := List.forall_mem_cons.mp admitted
    obtain ⟨next, options, disk⟩ := looking.take telling (known _ (Step.mem_disksOf _ _)) own inName
    rw [List.foldl_cons, List.foldl_cons, ← options, ← disk]
    rw [← options] at inName
    apply inductionHypothesis next _ further inName
    intro later among
    rw [disk] at among
    exact known later (List.mem_cons_of_mem _ among)

/-- A run in which each change is told leaves those of a checker that is told vouched for. -/
theorem Listening.takeAll (listening : checker.Listening (Step.coming steps) root kindOf)
    (told : Step.EachTold root steps) (rooted : checker.disk.Rooted)
    (absolute : Physical.isAbsolute root = true) (admitted : ∀ step ∈ steps, step.Admitted kindOf)
    (inName : ∀ kind, '\n' ∉ checker.options.importName kind) :
    (steps.foldl Checker.take checker).Listening [] root kindOf ∧
      (steps.foldl Checker.take checker).options = checker.options ∧
      (steps.foldl Checker.take checker).disk = steps.foldl Step.onDisk checker.disk := by
  induction steps generalizing checker with
  | nil => exact ⟨listening, rfl, rfl⟩
  | cons step steps inductionHypothesis =>
    obtain ⟨own, further⟩ := List.forall_mem_cons.mp admitted
    obtain ⟨next, options, disk⟩ := listening.take told rooted absolute own inName
    rw [List.foldl_cons, List.foldl_cons, ← options, ← disk]
    rw [← options] at inName
    refine inductionHypothesis next ?_ ?_ further inName
    · cases step with
      | edit change => exact told.2
      | tell path => exact told
      | check path kind => exact told
    · rw [disk]
      exact Step.rooted_onDisk rooted step

/-- Checkers on one disk, with one way of compiling and with roots that name the same directory,
have the same to report on a template. -/
theorem afresh_alike {one other : Checker} {path : Text} {kind : ImportsKind}
    (options : other.options = one.options) (inPath : '\n' ∉ path)
    (inName : '\n' ∉ one.options.importName kind) (disk : other.disk = one.disk)
    (rooted : one.disk.Rooted) (absolute : Physical.isAbsolute one.cache.project.root = true)
    (also : Physical.isAbsolute other.cache.project.root = true)
    (same : one.disk.directory? other.cache.project.root =
      one.disk.directory? one.cache.project.root) :
    other.afresh path kind = one.afresh path kind := by
  have inKey : '\n' ∉ Logical.stripAppRoot path := fun member =>
    inPath ((Logical.stripAppRoot_sublist path).subset member)
  have alike : Outcome.on one.options kind (Logical.stripAppRoot path) other.cache.project =
      Outcome.on one.options kind (Logical.stripAppRoot path) one.cache.project :=
    Outcome.on_alike inKey inName fun file _ =>
      seen_of_directory disk rooted absolute also same file
  rw [afresh, afresh, options, alike]

/-- A configured root that does not climb names the same directory whenever it is resolved. -/
theorem root_settled {disk earlier : Disk} {environment : Environment} {config : Config}
    (rooted : disk.Rooted) (absolute : Physical.isAbsolute environment.cwd = true)
    (plain : ['.', '.'] ∉ Physical.rawPieces (Physical.join environment.cwd
      (config.givenRoot.getD (Physical.resolveAgainst environment.home config.settings.project.root
        config.directory)))) :
    disk.directory? (disk.canonical environment.cwd (config.templateRoot disk environment)) =
      disk.directory? (earlier.canonical environment.cwd
        (config.templateRoot earlier environment)) := by
  have resolved (spelling : Disk) :
      disk.directory? (spelling.canonical environment.cwd
          (config.templateRoot spelling environment)) =
        disk.directory? (Physical.join environment.cwd
          (config.givenRoot.getD (Physical.resolveAgainst environment.home
            config.settings.project.root config.directory))) := by
    unfold Config.templateRoot
    cases given : config.givenRoot with
    | some root =>
      rw [given] at plain
      exact Disk.directory?_canonical rooted absolute plain
    | none =>
      rw [given, Option.getD_none] at plain
      have once := (spelling.canonical_plain plain).2
      have same (path : Text) (settled : Physical.isAbsolute path = true) :
          Physical.join environment.cwd path = path := if_pos settled
      rw [← same _ (spelling.isAbsolute_canonical absolute _)] at once
      rw [Disk.directory?_canonical rooted absolute once,
        same _ (spelling.isAbsolute_canonical absolute _)]
      exact Disk.directory?_canonical rooted absolute plain
  rw [resolved, resolved]

/-- Whatever changes of the disk a checker has seen and whatever it was asked before, it reports
on a template what a checker reports that is made from the same configuration on the disk as it
is, provided that the configured root still names the directory that it named when the checker
was made. Every change has to be one that the way of detection can detect. -/
theorem check_anew (disk : Disk) (environment : Environment) (config : Config)
    (detection : Detection) (kindOf : Text → ImportsKind) (steps : List Step) (path : Text)
    (rooted : disk.Rooted) (absolute : Physical.isAbsolute environment.cwd = true)
    (inName : ∀ kind, '\n' ∉ config.settings.options.importName kind)
    (admitted : ∀ step ∈ steps, step.Admitted kindOf) (inPath : '\n' ∉ path)
    (detectable : Step.Detectable detection disk
      (disk.canonical environment.cwd (config.templateRoot disk environment)) steps) :
    let standing := steps.foldl take (ofConfig disk environment config detection.signals)
    let fresh := ofConfig standing.disk environment config detection.signals
    let kind := kindOf (Logical.stripAppRoot path)
    standing.disk.directory? fresh.cache.project.root =
        standing.disk.directory? (disk.canonical environment.cwd
          (config.templateRoot disk environment)) →
      (standing.check path kind).1 = (fresh.check path kind).1 := by
  intro standing fresh kind same
  let root := disk.canonical environment.cwd (config.templateRoot disk environment)
  let further := standing.disk.canonical environment.cwd
    (config.templateRoot standing.disk environment)
  have settled : Physical.isAbsolute root = true := disk.isAbsolute_canonical absolute _
  have also : Physical.isAbsolute further = true := standing.disk.isAbsolute_canonical absolute _
  have kept (options : standing.options = config.settings.options)
      (moved : standing.disk = steps.foldl Step.onDisk disk)
      (there : standing.cache.project.root = root)
      (first : (standing.check path kind).1 = standing.afresh path kind)
      (second : (fresh.check path kind).1 = fresh.afresh path kind) :
      (standing.check path kind).1 = (fresh.check path kind).1 := by
    rw [first, second]
    refine (afresh_alike ?_ inPath (options ▸ inName kind) ?_ ?_ ?_ ?_ ?_).symm
    · exact options.symm
    · rfl
    · rw [moved]
      exact Step.rooted_foldl rooted steps
    · rw [there]
      exact settled
    · exact also
    · rw [there]
      exact same
  cases detection with
  | poll =>
    have looking : (ofConfig disk environment config none).Looking (Step.disksOf disk steps) root
        kindOf :=
      Cache.vouchedFor_empty ⟨⟨rfl, rfl⟩, rfl⟩
    obtain ⟨still, options, moved⟩ :=
      looking.takeAll detectable (fun _ among => among) admitted inName
    have known : standing.disk ∈ Step.disksOf disk steps := moved ▸ Step.last_mem_disksOf disk steps
    have begun : fresh.Looking (Step.disksOf disk steps) further kindOf :=
      Cache.vouchedFor_empty ⟨⟨rfl, rfl⟩, rfl⟩
    apply kept options moved still.sound.1.root
    · exact (check_vouched (probes_vouch detectable known root) still rfl inPath
        (options ▸ inName kind)).1
    · exact (check_vouched (probes_vouch detectable known further) begun rfl inPath (inName kind)).1
  | notify =>
    have listening : (ofConfig disk environment config (some {})).Listening (Step.coming steps) root
        kindOf :=
      Cache.vouchedFor_empty ⟨⟨rfl, rfl⟩, {}, rfl, Signals.sound_empty⟩
    obtain ⟨still, options, moved⟩ := listening.takeAll detectable rooted settled admitted inName
    have begun : fresh.Listening [] further kindOf :=
      Cache.vouchedFor_empty ⟨⟨rfl, rfl⟩, {}, rfl, Signals.sound_empty⟩
    apply kept options moved still.sound.1.root
    · exact (check_vouched (signals_vouch standing.disk root) still rfl inPath
        (options ▸ inName kind)).1
    · exact (check_vouched (signals_vouch standing.disk further) begun rfl inPath (inName kind)).1

/-- An import file appears beside a template that was checked, once looked for and once told by
the path of its directory. -/
theorem check_anew_import :
    let environment : Environment := ⟨"/r", "/"⟩
    let config : Config :=
      { settings := { compile := { defaultImports := ["@using A"] } }, file := "/r/view.toml"
        directory := "/r", givenRoot := none }
    let disk := Disk.editAll {} [.write ["r", "Views", "a.cshtml"] (Utf8.encode "<p>") 1]
    let steps : List Step := [.check "/Views/a.cshtml" .views,
      .edit (.write ["r", "Views", "_ViewImports.cshtml"] (Utf8.encode "@using") 1), .tell "/Views"]
    let standing (detection : Detection) :=
      steps.foldl take (ofConfig disk environment config detection.signals)
    let fresh (detection : Detection) :=
      ofConfig (standing detection).disk environment config detection.signals
    (((standing .poll).check "/Views/a.cshtml" .views).1 =
        ((fresh .poll).check "/Views/a.cshtml" .views).1 ∧
      ((standing .notify).check "/Views/a.cshtml" .views).1 =
        ((fresh .notify).check "/Views/a.cshtml" .views).1) ∧
      ((fresh .poll).check "/Views/a.cshtml" .views).1.isFailure = true := by
  intro environment config disk steps standing fresh
  have rooted : disk.Rooted := Disk.rooted_empty.editAll _
  have inName (kind : ImportsKind) : '\n' ∉ config.settings.options.importName kind :=
    TemplateUnit.newline_not_mem_importName _ _ kind
  have admitted : ∀ step ∈ steps, step.Admitted fun _ => .views := by decide
  have leads : Logical.Leads "/Views" "/Views/_ViewImports.cshtml" :=
    ⟨["Views"], ["_ViewImports.cshtml"], by decide, rfl, rfl⟩
  have told : Step.EachTold "/r" steps :=
    ⟨⟨"/Views/_ViewImports.cshtml", by decide, "/Views", List.mem_cons_self, leads⟩, trivial⟩
  have telling : Disk.Telling (Step.disksOf disk steps) := by
    apply Disk.Telling.of_entries
    decide +kernel
  refine ⟨⟨?_, ?_⟩, by decide +kernel⟩
  · exact check_anew disk environment config .poll (fun _ => .views) steps "/Views/a.cshtml" rooted
      (by decide) inName admitted (by decide) telling (by decide +kernel)
  · exact check_anew disk environment config .notify (fun _ => .views) steps "/Views/a.cshtml"
      rooted (by decide) inName admitted (by decide) told (by decide +kernel)

/-- A root that climbs out of a directory names nothing when this directory is gone: a new checker
finds no template, and the one that resolved its root before finds it where it was. -/
theorem check_climbing_root :
    let environment : Environment := ⟨"/r", "/"⟩
    let config : Config :=
      { settings :=
          { project := { root := "a/../b" }, compile := { defaultImports := ["@using A"] } }
        file := "/r/view.toml", directory := "/r", givenRoot := none }
    let disk := Disk.editAll {}
      [.write ["r", "a", "keep.txt"] [] 1, .write ["r", "b", "x.cshtml"] [] 1]
    let steps : List Step := [.edit (.remove ["r", "a"])]
    let standing := steps.foldl take (ofConfig disk environment config none)
    let fresh := ofConfig standing.disk environment config none
    (disk.Rooted ∧ (∀ step ∈ steps, step.Admitted fun _ => .views) ∧
        Step.Detectable .poll disk (disk.canonical environment.cwd
          (config.templateRoot disk environment)) steps) ∧
      (standing.check "/x.cshtml" .views).1.status = .compiled "x" false ∧
      (fresh.check "/x.cshtml" .views).1.status = .notFound := by
  intro environment config disk steps standing fresh
  have telling : Disk.Telling (Step.disksOf disk steps) := by
    apply Disk.Telling.of_entries
    decide +kernel
  refine ⟨⟨Disk.rooted_empty.editAll _, by decide, telling⟩, ?_, ?_⟩
  · decide +kernel
  · decide +kernel

end Checker

end ViewCompiler

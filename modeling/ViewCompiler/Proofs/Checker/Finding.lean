import ViewCompiler.Checker.Discovery
import ViewCompiler.Proofs.Checker.Anew
import ViewCompiler.Proofs.Checker.Rounds
import ViewCompiler.Proofs.Directory.Enumerating
import ViewCompiler.Proofs.Text.Ordering

/-!
# Checking what is found

A template is found by walking down from the root and checked by the logical path that the names on
the way make. The path leads back to the file as long as no name has a backslash in it, which a
logical path reads as another slash. What is found under such a name is looked for elsewhere, and a
report may say that it does not exist.

That a report says so is settled by what is seen of the path, whatever the cache holds: while the
files stay as they are, the entry of a key is one of nothing found exactly if nothing is seen there.
-/

namespace ViewCompiler

namespace Text

/-- What is joined has every character of its parts. -/
theorem mem_joined_of_mem {mark part : Text} {parts : List Text} {char : Char}
    (among : part ∈ parts) (within : char ∈ part) : char ∈ joined mark parts := by
  fun_induction joined mark parts with
  | case1 => cases among
  | case2 only => rwa [← List.mem_singleton.mp among]
  | case3 first more _ inductionHypothesis =>
    rcases List.mem_cons.mp among with rfl | later
    · exact List.mem_append_left _ (List.mem_append_left _ within)
    · exact List.mem_append_right _ (inductionHypothesis later)

end Text

namespace Cache

open Project TemplateUnit

variable {P Token : Type} [Project P Token] [Sighted P] {sight : Text → Option Octets}
  {before after : Cache P Token} {options : Options} {kind : ImportsKind} {key : Text}
  {reply : Reply Token}

/-- Every entry tells whether anything is seen under its key. No key is being built. -/
structure Truthful (sight : Text → Option Octets) (cache : Cache P Token) : Prop where
  seen : ∀ path, Sighted.seen cache.project path = sight path
  alone : ∀ key handle, cache.slot? key ≠ some (.pending handle)
  entries : ∀ key entry, cache.slot? key = some (.cached entry) →
    (entry.outcome = .notFound ↔ sight key = none)

/-- A unit comes to nothing found exactly if nothing is seen under its key. -/
theorem ofUnitOn_notFound_iff (options : Options) (kind : ImportsKind) (key : Text)
    (one other : P) :
    Outcome.ofUnitOn options ((resolve options kind key).run one) other = .notFound ↔
      Sighted.seen one key = none := by
  rw [Outcome.ofUnitOn, resolve_present]
  cases Sighted.seen one key <;> simp

/-- A call returns an entry that is truthful, and leaves only such entries. -/
theorem Goes.truthful (goes : Goes options kind {} before key reply after)
    (truthful : Truthful sight before) :
    (∃ entry compiled, reply = .entry entry compiled ∧
      (entry.outcome = .notFound ↔ sight key = none)) ∧ Truthful sight after := by
  cases goes with
  | @hits entry events asked stands current asks =>
    have seen (path : Text) : Sighted.seen asked path = sight path :=
      (asks.sight path).2.trans (truthful.seen path)
    exact ⟨⟨entry, false, rfl, truthful.entries key entry stands⟩, seen, truthful.alone,
      truthful.entries⟩
  | @builds entry compiled events asked issued _ outdated asks issues project shape dependents
      ends =>
    have same : after.project = issued := by
      rw [project]
      split <;> rfl
    have halfway (path : Text) : Sighted.seen asked path = sight path :=
      (asks.sight path).2.trans (truthful.seen path)
    have own : entry.outcome = .notFound ↔ sight key = none := by
      rw [shape, ← halfway key]
      exact ofUnitOn_notFound_iff options kind key asked after.project
    refine ⟨⟨entry, compiled, rfl, own⟩, ?_, ?_, ?_⟩
    · intro path
      rw [same, (issues.sight path).2, halfway path]
    · intro other handle stands
      rcases ends.stands stands with ⟨-, built⟩ | ⟨-, before⟩
      · cases built
      · exact truthful.alone other handle before
    · intro other known stands
      rcases ends.stands stands with ⟨rfl, built⟩ | ⟨-, before⟩
      · cases built
        exact own
      · exact truthful.entries other known before
  | breaksAtOnce _ breaks => cases breaks
  | breaksLate _ breaks => cases breaks

end Cache

namespace Directory

open Logical

variable {directory : Directory} {path : Text} {file : Place}

/-- Names that a file system allows are names of a logical path as well, unless there is a backslash
in one of them. -/
theorem proper_iff {names : List Text} (inside : ∀ name ∈ names, Physical.IsName name) :
    '\\' ∉ ofSegments names ↔ ∀ name ∈ names, Logical.IsName name := by
  constructor
  · intro plain name member
    refine isName_of_physical (inside name member) fun within => ?_
    exact plain (List.mem_cons_of_mem _ (Text.mem_joined_of_mem member within))
  · intro proper slash
    rcases List.mem_cons.mp slash with first | behind
    · cases first
    · rcases Text.mem_joined behind with mark | ⟨name, member, within⟩
      · simp at mark
      · have apart := (proper name member).2.2.2 _ within
        simp [isSeparator] at apart

/-- A walk down from the root, passing over what is hidden, meets a file, and this is the path that
the names on the way make. -/
def Meets (directory : Directory) (path : Text) (file : Place) : Prop :=
  ∃ place names, directory.disk.directory? directory.root = some place ∧ file = place ++ names ∧
    (directory.disk.file? file).isSome ∧ (∀ name ∈ names, isHidden name = false) ∧
    path = ofSegments names

/-- Where a path leads that was met is settled by its spelling. -/
theorem Meets.resolves (rooted : directory.disk.Rooted) (named : directory.disk.Named)
    (absolute : Physical.isAbsolute directory.root = true) (meets : directory.Meets path file) :
    (directory.item path).physical.bind (directory.disk.resolve? ['/']) = some file ↔
      '\\' ∉ path := by
  obtain ⟨place, names, below, rfl, stands, -, rfl⟩ := meets
  have inside : ∀ name ∈ names, Physical.IsName name := named.inside stands
  -- A spelling leads to the file if and only if its canonical form has the same names.
  have leads {left : List Text} (whole : ∀ name ∈ left, Physical.IsName name)
      (normal : normalize (ofSegments names) = some (ofSegments left)) :
      (directory.item (ofSegments names)).physical.bind (directory.disk.resolve? ['/']) =
        if (directory.disk.node? (place ++ left)).isSome then some (place ++ left) else none := by
    rw [item, normal]
    simp only [Option.bind_some, physicalOf_names whole]
    rw [Disk.resolve?_below rooted absolute whole, below, Option.bind_some]
  constructor
  · intro resolved slash
    cases normal : normalize (ofSegments names) with
    | none =>
      rw [item, normal] at resolved
      cases resolved
    | some canonical =>
      obtain ⟨left, rfl, proper⟩ := normalize_names normal
      rw [leads (fun name member => (proper name member).1.physical) normal] at resolved
      split at resolved
      · obtain rfl : left = names := List.append_cancel_left (Option.some.inj resolved)
        exact (proper_iff inside).mpr (fun name member => (proper name member).1) slash
      · cases resolved
  · intro plain
    rw [leads inside (normalize_ofSegments ((proper_iff inside).mp plain)),
      if_pos (Disk.stands_of_file stands)]

/-- Without a backslash in its path, the file that was met is seen. -/
theorem Meets.present (rooted : directory.disk.Rooted) (named : directory.disk.Named)
    (absolute : Physical.isAbsolute directory.root = true) (meets : directory.Meets path file)
    (plain : '\\' ∉ path) : (directory.item path).present = true := by
  obtain ⟨place, names, below, rfl, stands, -, rfl⟩ := meets
  have inside : ∀ name ∈ names, Physical.IsName name := named.inside stands
  have normal := normalize_ofSegments ((proper_iff inside).mp plain)
  have seen : directory.seen (ofSegments names) = directory.disk.file? (place ++ names) := by
    rw [seen_below rooted absolute inside normal, below, Option.bind_some]
  have present : (directory.item (ofSegments names)).present =
      (directory.seen (ofSegments names)).isSome :=
    Project.Sighted.item_present directory _
  rw [present, seen, stands]

end Directory

namespace Checker

open Directory

variable {checker : Checker} {config : Config} {path : Text} {sight : Text → Option Octets}

/-- A template is reported as missing exactly if that is its outcome. -/
theorem statusOn_notFound_iff {kind : ImportsKind} {outcome : Outcome} :
    statusOn kind outcome = .notFound ↔ outcome = .notFound := by
  cases outcome with
  | notFound => simp [statusOn]
  | compiled result => cases result <;> simp [statusOn]

/-- A report says that its template is not found exactly if nothing is seen of it, whatever the
cache holds. -/
theorem check_truthful (truthful : checker.cache.Truthful sight) (path : Text) (kind : ImportsKind) :
    ((checker.check path kind).1.path = path ∧ (checker.check path kind).1.kind = kind ∧
      ((checker.check path kind).1.status = .notFound ↔ sight path = none)) ∧
      (checker.check path kind).2.cache.Truthful sight := by
  rcases checker.check_cases path kind with ⟨left, report⟩ | ⟨absent, missing⟩
  · have goes := Cache.getOrAdd_goes checker.options kind {} checker.cache path (truthful.alone _)
    obtain ⟨⟨entry, compiled, reply, own⟩, after⟩ := goes.truthful truthful
    have key : sight (Logical.stripAppRoot path) = sight path := by
      rw [← truthful.seen, ← truthful.seen, Project.seen_stripAppRoot]
    rw [key] at own
    rw [report entry compiled reply, left]
    exact ⟨⟨rfl, rfl, statusOn_notFound_iff.trans own⟩, after⟩
  · rw [missing]
    rw [Project.Sighted.item_present, truthful.seen, Option.isSome_eq_false_iff,
      Option.isNone_iff_eq_none] at absent
    exact ⟨⟨rfl, rfl, iff_of_true rfl absent⟩, truthful⟩

/-- A truthful checker stays truthful whatever it checks. -/
theorem truthful_lasts : Lasts fun checker => checker.cache.Truthful sight where
  checks path kind truthful := (check_truthful truthful path kind).2
  drains truthful := ⟨truthful.seen, truthful.alone, truthful.entries⟩

/-- As long as the disk stays as it is, the entries stay truthful. -/
theorem truthful_takeAll {steps : List Step} (still : ∀ step ∈ steps, ∀ change, step ≠ .edit change)
    (truthful : checker.cache.Truthful sight) :
    (steps.foldl take checker).cache.Truthful sight := by
  induction steps generalizing checker with
  | nil => exact truthful
  | cons step steps inductionHypothesis =>
    obtain ⟨own, further⟩ := List.forall_mem_cons.mp still
    refine inductionHypothesis further ?_
    cases step with
    | edit change => exact absurd rfl (own change)
    | tell told =>
      obtain ⟨journal, one⟩ := checker.notify_told told
      rw [take, one]
      exact ⟨truthful.seen, truthful.alone, truthful.entries⟩
    | check path kind => exact (check_truthful truthful path kind).2

/-- A path is that of a template if its extension is among the configured ones. -/
theorem isTemplate_iff : config.isTemplate path = true ↔
    ∃ extension ∈ config.settings.project.extensions,
      Physical.extension? path = some extension := by
  unfold Config.isTemplate
  cases Physical.extension? path with
  | none => simp
  | some extension => simp

/-- In the whole directory, the files with the extension of a template are found that are met. -/
theorem mem_inDirectories (rooted : checker.disk.Rooted) (named : checker.disk.Named)
    (absolute : Physical.isAbsolute checker.cache.project.root = true) :
    path ∈ checker.inDirectories config [['/']] ↔
      config.isTemplate path = true ∧ ∃ file, checker.cache.project.Meets path file := by
  have whole : Logical.normalize ['/'] = some (Logical.ofSegments []) := by decide
  have within (extension : Text) : path ∈
      (checker.cache.project.enumerate ['/'] extension).map (·.path) ↔
        Physical.extension? path = some extension ∧
          ∃ file, checker.cache.project.Meets path file := by
    rw [mem_enumerate rooted named absolute (fun _ => List.not_mem_nil.elim) whole]
    simp only [List.append_nil, List.nil_append, Meets]
    constructor
    · rintro ⟨place, inner, below, stands, shown, spelled, extended⟩
      exact ⟨extended, _, place, inner, below, rfl, stands, shown, spelled⟩
    · rintro ⟨extended, _, place, inner, below, rfl, stands, shown, spelled⟩
      exact ⟨place, inner, below, stands, shown, spelled, extended⟩
  simp only [inDirectories, List.flatMap_singleton, List.mem_flatMap, within, isTemplate_iff]
  constructor
  · rintro ⟨extension, configured, extended, met⟩
    exact ⟨⟨extension, configured, extended⟩, met⟩
  · rintro ⟨⟨extension, configured, extended⟩, met⟩
    exact ⟨extension, configured, extended, met⟩

/-- Of these, import files are left out. -/
theorem mem_arranged (rooted : checker.disk.Rooted) (named : checker.disk.Named)
    (absolute : Physical.isAbsolute checker.cache.project.root = true) :
    path ∈ checker.arranged (checker.inDirectories config [['/']]) ↔
      checker.isImport path = false ∧ config.isTemplate path = true ∧
        ∃ file, checker.cache.project.Meets path file := by
  rw [arranged, Text.mem_withoutRepeats, Text.mem_sort, List.mem_filter,
    mem_inDirectories rooted named absolute]
  simp only [Bool.not_eq_true']
  exact and_comm

/-- What is found is what there is, and what becomes of it in checks while the disk stays as it
is. -/
structure Finds (checker : Checker) (config : Config) (found : List Text) : Prop where
  ordered : found.Pairwise Text.Precedes
  listed (path : Text) : path ∈ found ↔ checker.isImport path = false ∧
    config.isTemplate path = true ∧ ∃ file, checker.cache.project.Meets path file
  /-- A path leads back to the file that was met, unless there is a backslash in it. -/
  resolved {path : Text} {file : Place} (meets : checker.cache.project.Meets path file) :
    (checker.cache.project.item path).physical.bind (checker.disk.resolve? ['/']) = some file ↔
      '\\' ∉ path
  present {path : Text} (among : path ∈ found) (plain : '\\' ∉ path) :
    (checker.cache.project.item path).present = true
  /-- Whatever was checked before, what is found is reported in order, and it is not found again
  exactly if its path leads to no file. -/
  reported {steps : List Step} (still : ∀ step ∈ steps, ∀ change, step ≠ .edit change)
    (verbose progress pages : Bool) :
    List.Forall₂ (fun job report => (report.path, report.kind) = job ∧
        (report.status = .notFound ↔ (checker.cache.project.item job.1).present = false))
      (jobsOf found pages)
      ((steps.foldl take checker).checkAll verbose progress (jobsOf found pages)).1

/-- Every template below the root is found once, in order, and on a disk that stays as it is it is
found again when it is checked, unless there is a backslash in its path. -/
theorem discover_finds {disk : Disk} {environment : Environment} (rooted : disk.Rooted)
    (named : disk.Named) (absolute : Physical.isAbsolute environment.cwd = true) (config : Config)
    (signals : Option Signals) :
    let checker := ofConfig disk environment config signals
    ∃ found, checker.discover environment config [] = .ok found ∧ checker.Finds config found := by
  intro checker
  have inside : Physical.isAbsolute checker.cache.project.root = true :=
    disk.isAbsolute_canonical absolute _
  have listed (path : Text) :
      path ∈ checker.arranged (checker.inDirectories config [['/']]) ↔ _ :=
    mem_arranged rooted named inside
  refine ⟨_, rfl, Text.withoutRepeats_ordered (Text.sort_ordered _), listed, ?_, ?_, ?_⟩
  · intro path file meets
    exact meets.resolves rooted named inside
  · intro path among plain
    obtain ⟨-, -, file, meets⟩ := (listed path).mp among
    exact meets.present rooted named inside plain
  · intro steps still verbose progress pages
    have begun : checker.cache.Truthful checker.cache.project.seen :=
      ⟨fun _ => rfl, nofun, nofun⟩
    obtain ⟨-, reports⟩ := checkAll_lasts truthful_lasts (truthful_takeAll still begun) verbose
      progress (jobsOf (checker.arranged (checker.inDirectories config [['/']])) pages)
    refine reports.imp ?_
    rintro ⟨path, kind⟩ report ⟨standing, truthful, rfl⟩
    obtain ⟨⟨own, same, status⟩, -⟩ := check_truthful truthful path kind
    have present : (checker.cache.project.item path).present =
        (checker.cache.project.seen path).isSome :=
      Project.Sighted.item_present checker.cache.project path
    refine ⟨by rw [own, same], status.trans ?_⟩
    rw [present, Option.isSome_eq_false_iff, Option.isNone_iff_eq_none]

/-- A template beside another file and a hidden directory. -/
theorem discover_finds_beside :
    let environment : Environment := ⟨"/r", "/"⟩
    let config : Config := { file := "/r/view.toml", directory := "/r", givenRoot := none }
    let disk := Disk.editAll {}
      [.write ["r", "Views", "a.cshtml"] [] 1, .write ["r", "Views", "a.css"] [] 1,
        .write ["r", ".git", "b.cshtml"] [] 1]
    let checker := ofConfig disk environment config none
    disk.Rooted ∧ disk.Named ∧ Physical.isAbsolute environment.cwd = true ∧
      checker.discover environment config [] = .ok ["/Views/a.cshtml"] ∧
      checker.Finds config ["/Views/a.cshtml"] := by
  intro environment config disk checker
  have rooted : disk.Rooted := Disk.rooted_empty.editAll _
  have named : disk.Named := Disk.Named.of_entries (by decide +kernel)
  have absolute : Physical.isAbsolute environment.cwd = true := by decide
  have discovered : checker.discover environment config [] = .ok ["/Views/a.cshtml"] := by
    decide +kernel
  obtain ⟨found, same, finds⟩ := discover_finds rooted named absolute config none
  obtain rfl : found = ["/Views/a.cshtml"] :=
    Except.ok.inj (same.symm.trans discovered)
  exact ⟨rooted, named, absolute, discovered, finds⟩

/-- A template with a backslash in its name is found and, when it is checked, not found. -/
theorem discover_misspelled :
    let environment : Environment := ⟨"/r", "/"⟩
    let config : Config := { file := "/r/view.toml", directory := "/r", givenRoot := none }
    let disk := Disk.editAll {} [.write ["r", "a\\b.cshtml"] [] 1]
    let checker := ofConfig disk environment config none
    disk.Rooted ∧ disk.Named ∧
      checker.discover environment config [] = .ok ["/a\\b.cshtml"] ∧
      checker.cache.project.Meets "/a\\b.cshtml" ["r", "a\\b.cshtml"] ∧
      (checker.checkAll false false (jobsOf ["/a\\b.cshtml"] false)).1 =
        [⟨"/a\\b.cshtml", .views, .notFound⟩] := by
  intro environment config disk checker
  refine ⟨Disk.rooted_empty.editAll _, Disk.Named.of_entries (by decide +kernel),
    by decide +kernel, ?_, by decide +kernel⟩
  exact ⟨["r"], ["a\\b.cshtml"], by decide +kernel, rfl, by decide +kernel, by decide +kernel,
    by decide +kernel⟩

end Checker

end ViewCompiler

import ViewCompiler.Proofs.Checker.Finding
import ViewCompiler.Proofs.Config.Calls
import ViewCompiler.Proofs.Disk.Spelling
import ViewCompiler.Proofs.Path.Extension

/-!
# What accepted settings are good for

Settings are accepted by the characters of their names. That is enough for the names of import files
except for one dot and two, which are free of separators and name no file: with these, the import
files that are looked for are the directories themselves, or those above them. It is enough for an
extension only if there is no dot in it, since the extension of a file is what follows its last dot;
otherwise its files are templates only if what follows the last dot is an extension as well. A slash
in an extension is accepted, too, and there is no file with such a name.

Below the root, templates are found by walking, which passes over hidden names. So a template is not
found if it is hidden itself, or if it lies in a hidden directory.
-/

namespace ViewCompiler

open Text

/-! ## What is accepted -/

namespace Settings

/-- What is asked of settings. -/
structure Accepted (settings : Settings) : Prop where
  extensions : settings.project.extensions ≠ []
  bare : ∀ extension ∈ settings.project.extensions,
    extension ≠ [] ∧ beginsWith ['.'] extension = false
  importNames (kind : ImportsKind) : isFileName (settings.options.importName kind) = true
  window : settings.watch.window ≠ 0

/-- The imports of a kind have the name that the settings give for it. -/
theorem importName_options (settings : Settings) (kind : ImportsKind) :
    settings.options.importName kind =
      match kind with
      | .views => settings.compile.viewImports
      | .pages => settings.compile.pageImports := by
  unfold options
  dsimp only
  split <;> cases kind <;> rfl

/-- A field that names a file has no fault exactly if it has the form of a file name. -/
theorem fileNameFaults_eq_nil_iff {field name : Text} :
    fileNameFaults field name = [] ↔ isFileName name = true := by
  unfold fileNameFaults
  split <;> simp_all

/-- Nothing else is asked of them. -/
theorem faults_eq_nil_iff {settings : Settings} : settings.faults = [] ↔ settings.Accepted := by
  have bare : (settings.project.extensions.filter fun extension =>
        extension.isEmpty || beginsWith ['.'] extension) = [] ↔
      ∀ extension ∈ settings.project.extensions,
        extension ≠ [] ∧ beginsWith ['.'] extension = false := by
    simp [List.filter_eq_nil_iff]
  have names : (isFileName settings.compile.viewImports = true ∧
        isFileName settings.compile.pageImports = true) ↔
      ∀ kind, isFileName (settings.options.importName kind) = true := by
    simp only [importName_options]
    exact ⟨fun ⟨views, pages⟩ kind => by cases kind <;> assumption,
      fun each => ⟨each .views, each .pages⟩⟩
  simp only [faults, List.append_eq_nil_iff, List.map_eq_nil_iff, fileNameFaults_eq_nil_iff, bare]
  constructor
  · rintro ⟨⟨⟨⟨some, bare⟩, views⟩, pages⟩, window⟩
    refine ⟨?_, bare, names.mp ⟨views, pages⟩, ?_⟩
    · simpa using some
    · simpa using window
  · intro accepted
    obtain ⟨views, pages⟩ := names.mpr accepted.importNames
    refine ⟨⟨⟨⟨?_, accepted.bare⟩, views⟩, pages⟩, ?_⟩
    · simpa using accepted.extensions
    · simpa using accepted.window

end Settings

namespace Logical

variable {name : Text} {names : List Text}

/-- The name of a file is a name on a path, unless it is one dot or two. -/
theorem isName_iff : IsName name ↔
    Settings.isFileName name = true ∧ name ≠ ['.'] ∧ name ≠ ['.', '.'] := by
  have whole : name.any isSeparator = false ↔ ∀ char ∈ name, isSeparator char = false := by
    simp
  simp only [IsName, Settings.isFileName, Bool.and_eq_true, Bool.not_eq_true',
    List.isEmpty_eq_false_iff, whole]
  exact ⟨fun ⟨solid, dot, dots, free⟩ => ⟨⟨solid, free⟩, dot, dots⟩,
    fun ⟨⟨solid, free⟩, dot, dots⟩ => ⟨solid, dot, dots, free⟩⟩

/-- A file in a directory on the way to a path of these names. -/
def OnTheWay (names : List Text) (file : Text) : Prop :=
  ∃ front name, front <+: names ∧ front ≠ names ∧ IsName name ∧
    file = ofSegments (front ++ [name])

/-- What is on the way is spelled canonically, and it is no directory. -/
theorem OnTheWay.proper {file : Text} (named : ∀ name ∈ names, IsName name)
    (onTheWay : OnTheWay names file) : normalize file = some file ∧ file ≠ ['/'] := by
  obtain ⟨front, name, leading, -, own, rfl⟩ := onTheWay
  have proper : ∀ segment ∈ front ++ [name], IsName segment := by
    intro segment member
    rcases List.mem_append.mp member with inside | last
    · exact named segment (leading.mem inside)
    · rwa [List.mem_singleton.mp last]
  refine ⟨normalize_ofSegments proper, fun root => ?_⟩
  have none : front ++ [name] = [] :=
    ofSegments_injective (fun segment member => (proper segment member).physical) nofun root
  exact List.append_ne_nil_of_right_ne_nil front (List.cons_ne_nil name []) none

end Logical

open Logical

/-- The import files of a path are looked for on the way to it, unless their name is one dot or
two. -/
theorem TemplateUnit.imports_onTheWay_iff {P Token : Type} [Project P Token] [Project.Sighted P]
    {options : Options} {kind : ImportsKind} {path : Text} {names : List Text}
    (free : Settings.isFileName (options.importName kind) = true) (nonempty : names ≠ [])
    (named : ∀ name ∈ names, IsName name) (normal : normalize path = some (ofSegments names))
    (project : P) :
    (∀ item ∈ ((resolve options kind path).run project).imports, OnTheWay names item.path) ↔
      options.importName kind ≠ ['.'] ∧ options.importName kind ≠ ['.', '.'] := by
  have candidates : hierarchicalCandidates ((normalize path).getD path) (options.importName kind) =
      (importChain names (options.importName kind)).filter (· ≠ ofSegments names) := by
    rw [normal, Option.getD_some, hierarchicalCandidates, normalize_canonical normal]
    exact hierarchicalPaths_ofSegments nonempty (fun name member => (named name member).physical) _
  have each : (∀ item ∈ ((resolve options kind path).run project).imports,
        OnTheWay names item.path) ↔
      ∀ file ∈ importChain names (options.importName kind), file ≠ ofSegments names →
        OnTheWay names ((normalize file).getD file) := by
    rw [resolve_items, candidates]
    simp only [List.forall_mem_map, List.mem_filter, decide_eq_true_eq, and_imp,
      Project.Sighted.item_path]
  have elsewhere {file : Text} (astray : normalize file ≠ some file) :
      file ≠ ofSegments names := by
    rintro rfl
    exact astray (normalize_ofSegments named)
  rw [each]
  constructor
  · intro onTheWay
    -- The candidate in the root directory is spelled by its name alone.
    have topmost : ofSegments [options.importName kind] ∈
        importChain names (options.importName kind) :=
      List.mem_map.mpr ⟨0, List.mem_range.mpr (List.length_pos_iff.mpr nonempty),
        by rw [List.take_zero, List.nil_append]⟩
    refine ⟨fun dot => ?_, fun dots => ?_⟩
    · rw [dot] at topmost onTheWay
      have stays : normalize (ofSegments [['.']]) = some ['/'] := by decide
      have met := onTheWay _ topmost (elsewhere (by rw [stays]; decide))
      rw [stays, Option.getD_some] at met
      exact (met.proper named).2 rfl
    · rw [dots] at topmost onTheWay
      have leaves : normalize (ofSegments [['.', '.']]) = none := by decide
      have met := onTheWay _ topmost (elsewhere (by simp [leaves]))
      rw [leaves, Option.getD_none] at met
      exact Option.some_ne_none _ ((met.proper named).1.symm.trans leaves)
  · rintro dots file among -
    have proper : IsName (options.importName kind) := isName_iff.mpr ⟨free, dots⟩
    rw [normalize_importChain named proper among, Option.getD_some]
    obtain ⟨depth, below, rfl⟩ := List.mem_map.mp among
    refine ⟨names.take depth, _, List.take_prefix depth names, ?_, proper, rfl⟩
    intro whole
    have shorter := congrArg List.length whole
    have within : depth < names.length := List.mem_range.mp below
    rw [List.length_take] at shorter
    omega

/-! ## Templates -/

/-- The last name of a path is whole. -/
theorem Physical.slash_not_mem_fileName {path name : Text} (last : fileName? path = some name) :
    '/' ∉ name := by
  have among := List.mem_of_getLast? (fileName?_eq_some_iff.mp last)
  obtain ⟨piece, member, step⟩ := List.mem_filterMap.mp among
  obtain ⟨-, -, rfl⟩ := step?_eq_name_iff.mp step
  exact slash_not_mem_rawPieces member

namespace Config

variable {config : Config} {path stem extension : Text}

/-- A file with an extension is a template if what follows the last dot of its name is an
extension of templates, and something precedes this dot. -/
theorem isTemplate_stem (last : Physical.fileName? path = some (stem ++ '.' :: extension)) :
    config.isTemplate path = true ↔ (stem ≠ [] ∨ '.' ∈ extension) ∧
      Physical.lastPart extension ∈ config.settings.project.extensions := by
  rw [Checker.isTemplate_iff, Physical.extension?_stem last]
  by_cases hidden : stem = [] ∧ '.' ∉ extension
  · rw [if_pos hidden]
    simp [hidden]
  · rw [if_neg hidden]
    have solid : stem ≠ [] ∨ '.' ∈ extension := (not_and_or.mp hidden).imp_right not_not.mp
    simp [solid]

/-- The files with an extension are templates: there is no dot in it, or what follows its last dot
is an extension of templates as well. -/
def Serves (config : Config) (extension : Text) : Prop :=
  '.' ∈ extension → Physical.lastPart extension ∈ config.settings.project.extensions

/-- A file with a configured extension is a template exactly if it has a name before it and the
files with this extension are served. -/
theorem isTemplate_configured (configured : extension ∈ config.settings.project.extensions)
    (last : Physical.fileName? path = some (stem ++ '.' :: extension)) :
    config.isTemplate path = true ↔ (stem ≠ [] ∨ '.' ∈ extension) ∧ config.Serves extension := by
  rw [isTemplate_stem last, Serves]
  refine and_congr_right fun _ => ?_
  by_cases dotted : '.' ∈ extension
  · simp [dotted]
  · simp [dotted, Physical.lastPart_plain dotted, configured]

/-- A file below the root that has an extension of templates is found if it is neither hidden nor
an import file, as far as the extension serves. -/
theorem mem_discovered {checker : Checker} {place : Place} {names : List Text}
    (rooted : checker.disk.Rooted) (named : checker.disk.Named)
    (absolute : Physical.isAbsolute checker.cache.project.root = true)
    (below : checker.disk.directory? checker.cache.project.root = some place)
    (configured : extension ∈ config.settings.project.extensions)
    (last : names.getLast? = some (stem ++ '.' :: extension))
    (stands : (checker.disk.file? (place ++ names)).isSome) :
    ofSegments names ∈ checker.arranged (checker.inDirectories config [['/']]) ↔
      checker.isImport (ofSegments names) = false ∧
        (∀ name ∈ names, Directory.isHidden name = false) ∧ config.Serves extension := by
  have spelled : ∀ name ∈ names, Physical.IsName name := named.inside stands
  have met : (∃ file, checker.cache.project.Meets (ofSegments names) file) ↔
      ∀ name ∈ names, Directory.isHidden name = false := by
    constructor
    · rintro ⟨_, root, inner, found, rfl, file, shown, same⟩
      obtain rfl : inner = names := (ofSegments_injective spelled (named.inside file) same).symm
      exact shown
    · intro shown
      exact ⟨_, place, names, below, rfl, stands, shown, rfl⟩
  have template : config.isTemplate (ofSegments names) = true ↔
      (stem ≠ [] ∨ '.' ∈ extension) ∧ config.Serves extension := by
    obtain ⟨outer, rfl⟩ := List.getLast?_eq_some_iff.mp last
    exact isTemplate_configured configured (Physical.fileName?_ofSegments spelled)
  rw [Checker.mem_arranged rooted named absolute, met, template]
  constructor
  · rintro ⟨own, ⟨-, serves⟩, shown⟩
    exact ⟨own, shown, serves⟩
  · rintro ⟨own, shown, serves⟩
    refine ⟨own, ⟨.inl ?_, serves⟩, shown⟩
    -- Without a stem, the name would begin with a dot.
    rintro rfl
    have visible := shown _ (List.mem_of_getLast? last)
    simp [Directory.isHidden, beginsWith, afterLead?] at visible

/-- What accepted settings are good for. -/
structure Usable (config : Config) : Prop where
  /-- Import files are looked for on the way to a path, unless their name is one dot or two. -/
  imports {P Token : Type} [Project P Token] [Project.Sighted P] (project : P) (kind : ImportsKind)
    {path : Text} {names : List Text} (nonempty : names ≠ [])
    (named : ∀ name ∈ names, IsName name) (normal : normalize path = some (ofSegments names)) :
    (∀ item ∈ ((TemplateUnit.resolve config.settings.options kind path).run project).imports,
        OnTheWay names item.path) ↔
      config.settings.options.importName kind ≠ ['.'] ∧
        config.settings.options.importName kind ≠ ['.', '.']
  /-- A file with an extension of templates is a template, as far as the extension serves, unless
  the name begins with the dot of its extension. -/
  templates {extension : Text} (configured : extension ∈ config.settings.project.extensions)
    {path stem : Text} (last : Physical.fileName? path = some (stem ++ '.' :: extension)) :
    config.isTemplate path = true ↔ (stem ≠ [] ∨ '.' ∈ extension) ∧ config.Serves extension
  /-- No file has an extension with a slash in it. -/
  fileless {extension : Text} (slash : '/' ∈ extension) (path stem : Text) :
    Physical.fileName? path ≠ some (stem ++ '.' :: extension)
  /-- Below the root a file with an extension of templates is found, as far as the extension serves,
  if no name on the way to it is hidden and it is no import file. -/
  discovered {disk : Disk} (rooted : disk.Rooted) (named : disk.Named) {environment : Environment}
    (absolute : Physical.isAbsolute environment.cwd = true) (signals : Option Signals) :
    let checker := Checker.ofConfig disk environment config signals
    ∃ found, checker.discover environment config [] = .ok found ∧
      ∀ {place : Place} {names : List Text} {stem extension : Text},
        disk.directory? checker.cache.project.root = some place →
        extension ∈ config.settings.project.extensions →
        names.getLast? = some (stem ++ '.' :: extension) →
        (disk.file? (place ++ names)).isSome →
        (ofSegments names ∈ found ↔ checker.isImport (ofSegments names) = false ∧
          (∀ name ∈ names, Directory.isHidden name = false) ∧ config.Serves extension)

/-- Settings that are accepted are good for this. -/
theorem usable_of_validated (valid : config.validated = .ok config) : config.Usable := by
  have accepted := Settings.faults_eq_nil_iff.mp (validated_eq_ok_iff.mp valid).1
  refine ⟨?_, ?_, ?_, ?_⟩
  · intro P Token _ _ project kind path names nonempty named normal
    exact TemplateUnit.imports_onTheWay_iff (accepted.importNames kind) nonempty named normal
      project
  · intro extension configured path stem last
    exact isTemplate_configured configured last
  · intro extension slash path stem last
    exact Physical.slash_not_mem_fileName last
      (List.mem_append_right stem (List.mem_cons_of_mem '.' slash))
  · intro disk rooted named environment absolute signals checker
    refine ⟨_, rfl, ?_⟩
    intro place names stem extension below configured last stands
    exact mem_discovered rooted named (disk.isAbsolute_canonical absolute _) below configured last
      stands

/-- Another extension, and other names of import files. -/
theorem usable_of_validated_named :
    let config : Config :=
      { file := "/r/view.toml", directory := "/r", givenRoot := none
        settings :=
          { project := { extensions := (["razor", "html"] : List Text) }
            compile := { viewImports := "imports.razor", pageImports := ".imports" } } }
    config.validated = .ok config ∧ config.Usable := by
  intro config
  have valid : config.validated = .ok config := by decide
  exact ⟨valid, usable_of_validated valid⟩

/-- Settings with which no template is found and no import file can exist are accepted, too. -/
theorem validated_unusable :
    let environment : Environment := ⟨"/r", "/"⟩
    let config : Config :=
      { file := "/r/view.toml", directory := "/r", givenRoot := none
        settings :=
          { project := { extensions := (["html.erb"] : List Text) }
            compile := { viewImports := ".", pageImports := ".." } } }
    let disk := Disk.editAll {} [.write ["r", "Views", "a.html.erb"] [] 1]
    let path : Text := "/Views/a.html.erb"
    let candidates (kind : ImportsKind) : List Text :=
      ((TemplateUnit.resolve config.settings.options kind path).run
        (Memory.ofFiles [])).imports.map (·.path)
    config.validated = .ok config ∧ config.isTemplate path = false ∧
      (Checker.ofConfig disk environment config none).discover environment config [] = .ok [] ∧
      candidates .views = ["/", "/Views"] ∧ candidates .pages = ["/..", "/"] := by
  intro environment config disk path candidates
  exact ⟨by decide, by decide, by decide +kernel, by decide +kernel, by decide +kernel⟩

end Config

end ViewCompiler

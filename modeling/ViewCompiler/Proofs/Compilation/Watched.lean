import ViewCompiler.Compilation
import ViewCompiler.Proofs.Inquiry.Within
import ViewCompiler.Proofs.PageClass.SourceMap
import ViewCompiler.Proofs.Path.Canonical

/-!
# What compiling a unit depends on

Compiling a unit reads the template and the imports that exist, and the files of its
faults once more to show them. These files are among the paths that are watched for the
unit, so compiling depends on nothing else.
-/

namespace ViewCompiler

open Inquiry

namespace TemplateUnit

/-- The files of a unit: its template and the imports that exist. -/
def files (unit : TemplateUnit) : List Text :=
  unit.item.path :: (unit.imports.filter (·.present)).map (·.path)

/-- A unit of an existing template whose files are named by canonical paths on one line. -/
structure Sound (unit : TemplateUnit) : Prop where
  present : unit.item.present = true
  canonical : ∀ file ∈ unit.files, Logical.normalize file = some file
  oneLine : ∀ file ∈ unit.files, '\n' ∉ file

/-- The files of a unit are watched. -/
theorem files_watched (unit : TemplateUnit) : ∀ file ∈ unit.files, file ∈ unit.watched := by
  intro file member
  rcases List.mem_cons.mp member with rfl | inImports
  · exact List.mem_cons_self
  · obtain ⟨item, among, rfl⟩ := List.mem_map.mp inImports
    exact List.mem_cons_of_mem _ (List.mem_map_of_mem (List.mem_filter.mp among).1)

variable {paths : List Text}

/-- Reading an item asks for its text and nothing else. -/
theorem read_within {item : Item}
    (known : item.path ∈ paths ∧ Logical.normalize item.path = some item.path) :
    (read item).Within paths fun result => ∀ document, result = .ok document →
      document.file = some item.path := by
  constructor
  · exact fun _ => known
  · intro read
    cases read with
    | ok content =>
      rintro document ⟨⟩
      rfl
    | error fault => rintro document ⟨⟩

/-- So does reading many items. -/
theorem readAll_within {items : List Item}
    (known : ∀ item ∈ items, item.path ∈ paths ∧ Logical.normalize item.path = some item.path) :
    (readAll items).Within paths fun result => ∀ documents, result = .ok documents →
      ∀ document ∈ documents, ∃ item ∈ items, document.file = some item.path := by
  induction items with
  | nil =>
    rintro documents ⟨⟩
    simp
  | cons first items inductionHypothesis =>
    apply within_andThen (read_within (known first (by simp)))
    intro result own
    cases result with
    | error unreadable =>
      rintro documents ⟨⟩
    | ok document =>
      refine within_andThen (inductionHypothesis fun item member => known item (by simp [member]))
        fun result further => ?_
      cases result with
      | error unreadable =>
        rintro documents ⟨⟩
      | ok documents =>
        rintro _ ⟨⟩ other member
        rcases List.mem_cons.mp member with rfl | later
        · exact ⟨first, by simp, own _ rfl⟩
        · obtain ⟨item, among, named⟩ := further documents rfl other later
          exact ⟨item, by simp [among], named⟩

/-- The documents of a unit are read from its files. -/
theorem document_within (options : Options) {unit : TemplateUnit} (sound : unit.Sound) :
    (unit.document options).Within unit.watched fun result => ∀ document, result = .ok document →
      document.path ∈ unit.files ∧ ∀ source ∈ document.imports, ∀ file, source.file = some file →
        file ∈ unit.files := by
  have known (file : Text) (member : file ∈ unit.files) :
      file ∈ unit.watched ∧ Logical.normalize file = some file :=
    ⟨unit.files_watched file member, sound.canonical file member⟩
  have inFiles {item : Item} (member : item ∈ unit.imports.filter (·.present)) :
      item.path ∈ unit.files :=
    List.mem_cons_of_mem _ (List.mem_map_of_mem member)
  apply within_andThen (read_within (known unit.item.path List.mem_cons_self))
  intro result _
  cases result with
  | error unreadable =>
    rintro document ⟨⟩
  | ok source =>
    refine within_andThen (readAll_within fun item member => known item.path (inFiles member))
      fun result imports => ?_
    cases result with
    | error unreadable =>
      rintro document ⟨⟩
    | ok documents =>
      rintro document ⟨⟩
      refine ⟨List.mem_cons_self, ?_⟩
      intro other member file named
      rcases List.mem_cons.mp member with rfl | among
      · simp [Options.defaultDocument] at named
      · obtain ⟨item, inImports, same⟩ := imports documents rfl other among
        rw [same] at named
        cases named
        exact inFiles inImports

variable {P Token : Type} [Project P Token] {project : P} {unit : TemplateUnit}
  {document : CodeDocument}

/-- The document has the path of the item and its text. -/
def Reads (project : P) (item : Item) (source : SourceDocument) : Prop :=
  item.present = true ∧ source.file = some item.path ∧
    Project.text project item = .ok source.content

/-- What is read of an item is the item's text, under its path. -/
theorem read_run {item : Item} {source : SourceDocument}
    (given : (read item).run project = .ok source) : Reads project item source := by
  have present : item.present = true := by
    cases exists_ : item.present with
    | true => rfl
    | false =>
      simp only [read, textOf, run_andThen, run, Project.text, exists_] at given
      cases given
  rw [read, run_andThen] at given
  simp only [textOf, run] at given
  cases text : Project.text project item with
  | error fault =>
    rw [text] at given
    cases given
  | ok content =>
    rw [text] at given
    cases given
    exact ⟨present, rfl, text⟩

/-- So is everything that is read of many items. -/
theorem readAll_run {items : List Item} {sources : List SourceDocument}
    (given : (readAll items).run project = .ok sources) :
    ∀ source ∈ sources, ∃ item ∈ items, Reads project item source := by
  induction items generalizing sources with
  | nil =>
    cases given
    simp
  | cons first items inductionHypothesis =>
    rw [readAll] at given
    obtain ⟨document, own, others⟩ := run_andThen_ok given fun _ => rfl
    obtain ⟨documents, further, all⟩ := run_andThen_ok others fun _ => rfl
    cases all
    intro source member
    rcases List.mem_cons.mp member with rfl | later
    · exact ⟨first, by simp, read_run own⟩
    · obtain ⟨item, among, reads⟩ := inductionHypothesis further source later
      exact ⟨item, by simp [among], reads⟩

/-- The template and the imports of a document that is read are the items of its unit, and
the default imports. -/
theorem document_run {options : Options}
    (given : (unit.document options).run project = .ok document) :
    document.path = unit.item.path ∧ Reads project unit.item document.source ∧
      ∀ source ∈ document.imports, source = options.defaultDocument ∨
        ∃ item ∈ unit.imports.filter (·.present), Reads project item source := by
  rw [TemplateUnit.document] at given
  obtain ⟨source, own, others⟩ := run_andThen_ok given fun _ => rfl
  obtain ⟨sources, further, all⟩ := run_andThen_ok others fun _ => rfl
  cases all
  refine ⟨rfl, read_run own, ?_⟩
  intro source member
  exact (List.mem_cons.mp member).imp_right fun later => readAll_run further source later

end TemplateUnit

namespace Failure

variable {α : Type} {paths : List Text}

/-- Entering a fault adds no group but that of its file. -/
theorem mem_enter {file : Text} {fault : α} {groups : List (Text × List α)} {group : Text × List α}
    (member : group ∈ enter file fault groups) :
    group.1 = file ∨ ∃ other ∈ groups, group.1 = other.1 := by
  induction groups with
  | nil =>
    obtain rfl : group = (file, [fault]) := by simpa [enter] using member
    exact .inl rfl
  | cons first groups inductionHypothesis =>
    unfold enter at member
    split at member
    · rename_i same
      rcases List.mem_cons.mp member with rfl | later
      · exact .inl same
      · exact .inr ⟨group, by simp [later], rfl⟩
    · rcases List.mem_cons.mp member with rfl | later
      · exact .inr ⟨_, by simp, rfl⟩
      · apply (inductionHypothesis later).imp_right
        rintro ⟨other, among, same⟩
        exact ⟨other, by simp [among], same⟩

/-- Every group is of the file of one of the faults. -/
theorem mem_grouped {fileOf : α → Text} {faults : List α} {group : Text × List α}
    (member : group ∈ grouped fileOf faults) : ∃ fault ∈ faults, group.1 = fileOf fault := by
  have every : ∀ group ∈ grouped fileOf faults, ∃ fault ∈ faults, group.1 = fileOf fault := by
    apply List.foldlRecOn (motive := fun groups : List (Text × List α) =>
      ∀ group ∈ groups, ∃ fault ∈ faults, group.1 = fileOf fault)
    · simp
    · intro groups known fault among group entered
      rcases mem_enter entered with own | ⟨earlier, inGroups, named⟩
      · exact ⟨fault, among, own⟩
      · obtain ⟨other, inFaults, same⟩ := known earlier inGroups
        exact ⟨other, inFaults, named.trans same⟩
  exact every group member

/-- Showing the content of a file asks for this file and nothing else. -/
theorem contentOf_within {file : Text} (known : file ∈ paths ∧ Logical.normalize file = some file) :
    (contentOf file).Within paths fun _ => True := by
  constructor
  · exact known
  · intro present
    cases present with
    | false => trivial
    | true =>
      constructor
      · exact fun _ => known
      · intro read
        cases read <;> trivial

/-- Failures are shown with the files of their faults. -/
theorem grouped_within {fileOf : α → Text} {faults : List α}
    {show_ : Option Text → Text × List α → Failure}
    (known : ∀ fault ∈ faults, fileOf fault ∈ paths ∧
      Logical.normalize (fileOf fault) = some (fileOf fault)) :
    (Inquiry.each
      (fun group => (contentOf group.1).andThen fun content => .answer (show_ content group))
      (grouped fileOf faults)).Within paths fun _ => True := by
  apply within_each
  intro group member
  obtain ⟨fault, among, same⟩ := mem_grouped member
  have file := known fault among
  rw [← same] at file
  exact within_andThen (contentOf_within file) fun _ _ => trivial

end Failure

/-- A file of a document: its template or the file of an import. -/
def CodeDocument.HasFile (document : CodeDocument) (file : Text) : Prop :=
  file = document.path ∨ ∃ source ∈ document.imports, source.file = some file

namespace CompilationResult

open TemplateUnit

variable {document : CodeDocument}

/-- An error is one of a file of the document. -/
theorem error_hasFile {error : TemplateError} (member : error ∈ PageClass.errorsOf document) :
    document.HasFile (Failure.fileOfError document.path error) := by
  unfold Failure.fileOfError
  cases located : error.location.file with
  | none => exact .inl rfl
  | some file => exact .inr (PageClass.errorsOf_files member located)

/-- So is what is wrong with the code of a document without errors. -/
theorem diagnostic_hasFile {references : List Text} {diagnostics : List Diagnostic}
    {diagnostic : Diagnostic} (named : document.NamesOnOneLine)
    (accepted : (PageClass.generate document).errors = [])
    (refused : Manifest.check references (PageClass.generate document).code = .error diagnostics)
    (member : diagnostic ∈ diagnostics) :
    document.HasFile (Failure.fileOfDiagnostic document.path diagnostic) := by
  unfold Failure.fileOfDiagnostic
  cases located : diagnostic.file with
  | none => exact .inl rfl
  | some file => exact PageClass.check_files named accepted refused member located

/-- Compiling a document asks for its files and nothing else. -/
theorem ofDocument_within (options : Options) {paths : List Text} (named : document.NamesOnOneLine)
    (known : ∀ file, document.HasFile file → file ∈ paths ∧ Logical.normalize file = some file) :
    (ofDocument options document).Within paths fun _ => True := by
  unfold ofDocument
  split
  · rename_i code generated
    split
    · trivial
    · rename_i diagnostics failed
      have accepted : (PageClass.generate document).errors = [] := by rw [generated]
      have refused : Manifest.check options.references (PageClass.generate document).code =
          .error diagnostics := by
        rw [generated]
        exact failed
      refine within_andThen (Failure.grouped_within ?_) fun _ _ => trivial
      intro diagnostic member
      exact known _ (diagnostic_hasFile named accepted refused member)
  · rename_i code faults _ generated
    refine within_andThen (Failure.grouped_within ?_) fun _ _ => trivial
    intro error member
    have listed : error ∈ PageClass.errorsOf document := by
      rw [← PageClass.generate_errors, generated]
      exact member
    exact known _ (error_hasFile listed)

/-- Compiling a unit asks for its files and nothing else. -/
theorem attempt_within (options : Options) {unit : TemplateUnit} (sound : unit.Sound) :
    (attempt options unit).Within unit.watched fun _ => True := by
  have known (file : Text) (member : file ∈ unit.files) :
      file ∈ unit.watched ∧ Logical.normalize file = some file :=
    ⟨unit.files_watched file member, sound.canonical file member⟩
  apply within_andThen (document_within options sound)
  intro result documents
  cases result with
  | error unreadable => trivial
  | ok document =>
    obtain ⟨template, imports⟩ := documents document rfl
    have named : document.NamesOnOneLine := ⟨sound.oneLine _ template,
      fun source member file same => sound.oneLine file (imports source member file same)⟩
    have files (file : Text) (belongs : document.HasFile file) : file ∈ unit.files := by
      rcases belongs with rfl | ⟨source, member, same⟩
      · exact template
      · exact imports source member file same
    apply within_andThen
      (ofDocument_within options named fun file belongs => known file (files file belongs))
    intro _ _
    trivial

end CompilationResult

/-- An item as a state of a project in memory has it at a path. -/
def Item.SeenAt (path : Text) (item : Item) : Prop := ∃ memory : Memory, item = memory.item path

namespace Item

variable {path : Text} {item : Item} {memory earlier later : Memory}

/-- The path of an item is its own spelling, whatever the state. -/
theorem seen_again (seen : item.SeenAt path) (memory : Memory) :
    memory.item item.path = memory.item path := by
  obtain ⟨other, rfl⟩ := seen
  cases normal : Logical.normalize path with
  | none => rw [other.item_none normal]
  | some canonical =>
    rw [other.item_some normal, memory.item_some normal,
      memory.item_some (Logical.normalize_canonical normal)]

/-- An item that exists is found under its canonical path. -/
theorem seen_canonical (seen : item.SeenAt path) (present : item.present = true) :
    Logical.normalize item.path = some item.path := by
  obtain ⟨memory, rfl⟩ := seen
  cases normal : Logical.normalize path with
  | none =>
    rw [memory.item_none normal] at present
    cases present
  | some canonical =>
    rw [memory.item_some normal]
    exact Logical.normalize_canonical normal

/-- An item that is seen at a path on one line is named on one line. -/
theorem seen_oneLine (seen : item.SeenAt path) (oneLine : '\n' ∉ path) : '\n' ∉ item.path := by
  obtain ⟨memory, rfl⟩ := seen
  cases normal : Logical.normalize path with
  | none =>
    rw [memory.item_none normal]
    exact oneLine
  | some canonical =>
    rw [memory.item_some normal]
    intro member
    exact (Logical.mem_normalize normal member).elim (by decide) oneLine

end Item

namespace TemplateUnit

variable {options : Options} {kind : ImportsKind} {path : Text} {unit : TemplateUnit}
  {memory : Memory}

/-- A unit that was resolved for a path, each item in some state of the project. -/
structure ResolvedFor (options : Options) (kind : ImportsKind) (path : Text) (unit : TemplateUnit) :
    Prop where
  item : unit.item.SeenAt path
  imports : List.Forall₂ Item.SeenAt
    (hierarchicalCandidates unit.item.path (options.importName kind)) unit.imports

/-- Every import of a resolved unit was seen at a candidate. -/
theorem ResolvedFor.candidate (resolved : unit.ResolvedFor options kind path) :
    ∀ item ∈ unit.imports,
      ∃ candidate ∈ hierarchicalCandidates unit.item.path (options.importName kind),
        item.SeenAt candidate :=
  fun _ member => exists_related resolved.imports member

/-- The unit of a path in one state. -/
theorem resolve_run (options : Options) (kind : ImportsKind) (path : Text) (memory : Memory) :
    let candidates := hierarchicalCandidates (memory.item path).path (options.importName kind)
    (resolve options kind path).run memory = ⟨memory.item path, candidates.map memory.item⟩ := by
  have same : Project.item memory path = memory.item path := rfl
  simp only [resolve, run_andThen, run_each, itemAt, run, same]
  rfl

/-- Whichever states answer, resolving a path leads to a unit of the path. -/
theorem resolve_leadsTo (options : Options) (kind : ImportsKind) (path : Text) :
    (resolve options kind path).LeadsTo (ResolvedFor options kind path) := by
  have single (candidate : Text) : (itemAt candidate).LeadsTo (Item.SeenAt candidate) :=
    fun memory => ⟨memory, rfl⟩
  apply leadsTo_andThen (single path)
  intro item template
  exact leadsTo_andThen (leadsTo_each single) fun imports seen => ⟨template, seen⟩

/-- A unit that was resolved for a path is one for it. -/
theorem resolve_resolved (options : Options) (kind : ImportsKind) (path : Text) (memory : Memory) :
    ((resolve options kind path).run memory).ResolvedFor options kind path :=
  run_leadsTo memory (resolve_leadsTo options kind path)

/-- The names of import files are on one line, unless others are configured. -/
theorem newline_not_mem_importName (references defaults : List Text) (kind : ImportsKind) :
    '\n' ∉ ({ references, defaults } : Options).importName kind := by
  cases kind with
  | views => exact (by decide : '\n' ∉ ("_ViewImports.cshtml" : Text))
  | pages => exact (by decide : '\n' ∉ ("_PageImports.cshtml" : Text))

/-- A resolved unit of an existing template can be compiled if no line feeds are in the
path and in the name of the import files. -/
theorem ResolvedFor.sound (resolved : unit.ResolvedFor options kind path)
    (present : unit.item.present = true) (inPath : '\n' ∉ path)
    (inName : '\n' ∉ options.importName kind) : unit.Sound := by
  have template := Item.seen_oneLine resolved.item inPath
  refine ⟨present, ?_, ?_⟩
  · intro file member
    rcases List.mem_cons.mp member with rfl | inImports
    · exact Item.seen_canonical resolved.item present
    · obtain ⟨item, among, rfl⟩ := List.mem_map.mp inImports
      obtain ⟨kept, exists_⟩ := List.mem_filter.mp among
      obtain ⟨candidate, -, seen⟩ := resolved.candidate item kept
      exact Item.seen_canonical seen exists_
  · intro file member
    rcases List.mem_cons.mp member with rfl | inImports
    · exact template
    · obtain ⟨item, among, rfl⟩ := List.mem_map.mp inImports
      obtain ⟨candidate, listed, seen⟩ := resolved.candidate item (List.mem_filter.mp among).1
      exact Item.seen_oneLine seen (newline_not_mem_candidate template inName listed)

/-- Every item of a unit is as a state of the project has it. -/
def Current (memory : Memory) (unit : TemplateUnit) : Prop :=
  ∀ item ∈ unit.item :: unit.imports, memory.item item.path = item

/-- A unit is current as soon as it is resolved. -/
theorem resolve_current (options : Options) (kind : ImportsKind) (path : Text)
    (memory : Memory) : ((resolve options kind path).run memory).Current memory := by
  intro item member
  rw [resolve_run] at member
  rcases List.mem_cons.mp member with rfl | inImports
  · exact Item.seen_again ⟨memory, rfl⟩ memory
  · obtain ⟨candidate, _, rfl⟩ := List.mem_map.mp inImports
    exact Item.seen_again ⟨memory, rfl⟩ memory

/-- A resolved unit that is current is what resolving gives now. -/
theorem ResolvedFor.eq_resolve (resolved : unit.ResolvedFor options kind path)
    (current : unit.Current memory) : (resolve options kind path).run memory = unit := by
  have template : memory.item path = unit.item := by
    rw [← Item.seen_again resolved.item]
    exact current unit.item List.mem_cons_self
  have imports : (hierarchicalCandidates unit.item.path (options.importName kind)).map
      memory.item = unit.imports := by
    have known : ∀ item ∈ unit.imports, memory.item item.path = item := by
      intro item member
      exact current item (List.mem_cons_of_mem _ member)
    have seen := resolved.imports
    generalize hierarchicalCandidates unit.item.path _ = candidates at seen ⊢
    generalize unit.imports = items at seen known ⊢
    induction seen with
    | nil => rfl
    | cons first _ inductionHypothesis =>
      rw [List.map_cons, inductionHypothesis fun item member => known item (by simp [member]),
        ← Item.seen_again first, known _ (by simp)]
  rw [resolve_run, template, imports]

end TemplateUnit

end ViewCompiler

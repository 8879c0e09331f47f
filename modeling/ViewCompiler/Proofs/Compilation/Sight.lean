import ViewCompiler.Proofs.Cache.Fresh

/-!
# What compiling a path can see

All that a project shows of a path is the octets of its file, if it has one. Two states of a
project that show the same of the paths that are watched for a unit therefore resolve and
compile its template to the same outcome: whether it exists, what is wrong with it and what
the files of its faults hold, or what it is compiled to. The files of the faults are named by
the code that was generated, so it is the account of these names that keeps the sources of
messages within what is watched.

Generations, clocks, fingerprints and physical paths do not enter the outcome. Nothing is
said here of when tokens tell that something changed.
-/

namespace ViewCompiler

open Inquiry

/-- A project in which the octets of the file that a path names, if there is one, are all
that there is to see of the path. Tokens have no part in what is seen. -/
class Project.Sighted (P : Type) {Token : outParam Type} [Project P Token] where
  /-- The octets of the file that a path names. -/
  seen : P → Text → Option Octets
  item_path (project : P) (path : Text) :
    (Project.item project path).path = (Logical.normalize path).getD path
  item_present (project : P) (path : Text) :
    (Project.item project path).present = (seen project path).isSome
  octets_item {project : P} {path : Text} {content : Octets}
    (stands : seen project path = some content) :
    Project.octets project (Project.item project path) = .ok content
  seen_canonical (project : P) {path canonical : Text}
    (normal : Logical.normalize path = some canonical) : seen project canonical = seen project path
  seen_outside (project : P) {path : Text} (outside : Logical.normalize path = none) :
    seen project path = none
  item_asked (project : P) (token : Token) (path : Text) :
    Project.item (Project.asked project token).1 path = Project.item project path
  item_issued (project : P) (other path : Text) :
    Project.item (Project.issue project other).2 path = Project.item project path
  seen_asked (project : P) (token : Token) (path : Text) :
    seen (Project.asked project token).1 path = seen project path
  seen_issued (project : P) (other path : Text) :
    seen (Project.issue project other).2 path = seen project path

/-- The octets of the file that a path names, if it stays under the root and has one. -/
def Memory.seen (memory : Memory) (path : Text) : Option Octets :=
  (Logical.normalize path).bind memory.content?

instance : Project.Sighted Memory where
  seen := Memory.seen
  item_path memory path := by
    have same : Project.item memory path = memory.item path := rfl
    rw [same]
    cases normal : Logical.normalize path with
    | none => rw [memory.item_none normal, Option.getD_none]
    | some canonical => rw [memory.item_some normal, Option.getD_some]
  item_present memory path := by
    have same : Project.item memory path = memory.item path := rfl
    rw [same, Memory.seen]
    cases normal : Logical.normalize path with
    | none => rw [memory.item_none normal, Option.bind_none, Option.isSome_none]
    | some canonical => rw [memory.item_some normal, Option.bind_some]
  octets_item {memory path content} stands := by
    obtain ⟨canonical, normal, held⟩ := Option.bind_eq_some_iff.mp stands
    have same : Project.item memory path = memory.item path := rfl
    rw [same, memory.item_some normal]
    have octets : Project.octets memory
        { path := canonical, present := (memory.content? canonical).isSome } =
        match memory.content? canonical with
        | some content => .ok content
        | none => .error .gone := rfl
    rw [octets, held]
  seen_canonical memory {path canonical} normal := by
    rw [Memory.seen, Memory.seen, normal, Logical.normalize_canonical normal]
  seen_outside memory {path} outside := by
    rw [Memory.seen, outside, Option.bind_none]
  item_asked _ _ _ := rfl
  item_issued _ _ _ := rfl
  seen_asked _ _ _ := rfl
  seen_issued _ _ _ := rfl

namespace Project

variable {P Token : Type} [Project P Token] [Sighted P] {one other : P} {path : Text}

/-- It does not matter how a path is spelled. -/
theorem seen_spelled (project : P) (path : Text) :
    Sighted.seen project ((Logical.normalize path).getD path) = Sighted.seen project path := by
  cases normal : Logical.normalize path with
  | none => rfl
  | some canonical => exact Sighted.seen_canonical project normal

/-- What is seen of a path does not depend on a `~` in front of it. -/
theorem seen_stripAppRoot (project : P) (path : Text) :
    Sighted.seen project (Logical.stripAppRoot path) = Sighted.seen project path := by
  have same := Logical.normalize_stripAppRoot path
  cases normal : Logical.normalize path with
  | none =>
    rw [normal] at same
    rw [Sighted.seen_outside project normal, Sighted.seen_outside project same]
  | some canonical =>
    rw [normal] at same
    rw [← Sighted.seen_canonical project normal, ← Sighted.seen_canonical project same]

/-- The text of the item at a path is what is seen there. -/
theorem text_item (project : P) (path : Text) :
    Project.text project (Project.item project path) =
      match Sighted.seen project path with
      | some content => readText content
      | none => .error (.absent ((Logical.normalize path).getD path)) := by
  unfold Project.text
  rw [Sighted.item_present]
  cases stands : Sighted.seen project path with
  | none => simp only [Option.isSome_none, Bool.false_eq_true, ↓reduceIte, Sighted.item_path]
  | some content => simp only [Option.isSome_some, ↓reduceIte, Sighted.octets_item stands]

/-- Items at a path that shows the same are present alike and have the same text. -/
theorem item_alike (same : Sighted.seen other path = Sighted.seen one path) :
    (Project.item other path).path = (Project.item one path).path ∧
      (Project.item other path).present = (Project.item one path).present ∧
      Project.text other (Project.item other path) = Project.text one (Project.item one path) := by
  refine ⟨?_, ?_, ?_⟩
  · rw [Sighted.item_path, Sighted.item_path]
  · rw [Sighted.item_present, Sighted.item_present, same]
  · rw [text_item, text_item, same]

end Project

open Project

variable {P Token : Type} [Project P Token] [Sighted P] {one other : P} {options : Options}
  {kind : ImportsKind} {path : Text}

namespace TemplateUnit

/-- The unit of a path, in any project. -/
theorem resolve_items (options : Options) (kind : ImportsKind) (path : Text) (project : P) :
    (resolve options kind path).run project =
      ⟨Project.item project path,
        (hierarchicalCandidates ((Logical.normalize path).getD path)
          (options.importName kind)).map (Project.item project)⟩ := by
  simp only [resolve, run_andThen, run_each, itemAt, run, Sighted.item_path]

/-- The paths that are watched for a path are those of the path itself and of the candidates
for its imports, whatever there is. -/
theorem watched_resolve (options : Options) (kind : ImportsKind) (path : Text) (project : P) :
    ((resolve options kind path).run project).watched =
      (path :: hierarchicalCandidates ((Logical.normalize path).getD path)
        (options.importName kind)).map fun file => (Logical.normalize file).getD file := by
  rw [resolve_items, watched, List.map_cons, List.map_map]
  simp only [Function.comp_def, Sighted.item_path]

/-- What shows the same at the watched paths shows the same at the path and at the candidates
for its imports. -/
theorem seen_of_watched
    (same : ∀ file ∈ ((resolve options kind path).run one).watched,
      Sighted.seen other file = Sighted.seen one file) :
    ∀ file ∈ path :: hierarchicalCandidates ((Logical.normalize path).getD path)
      (options.importName kind), Sighted.seen other file = Sighted.seen one file := by
  intro file member
  rw [watched_resolve] at same
  have spelled := same _ (List.mem_map_of_mem member)
  rwa [seen_spelled, seen_spelled] at spelled

/-- An item that shows the same is read as the same. -/
theorem read_alike {file : Text} (same : Sighted.seen other file = Sighted.seen one file) :
    (read (Project.item other file)).run other = (read (Project.item one file)).run one := by
  obtain ⟨spelled, -, text⟩ := item_alike same
  rw [read, read, run_andThen, run_andThen]
  simp only [textOf, run, text, spelled]
  cases Project.text one (Project.item one file) <;> rfl

/-- So are the items that exist of many. -/
theorem readAll_alike {files : List Text}
    (same : ∀ file ∈ files, Sighted.seen other file = Sighted.seen one file) :
    (readAll ((files.map (Project.item other)).filter (·.present))).run other =
      (readAll ((files.map (Project.item one)).filter (·.present))).run one := by
  induction files with
  | nil => rfl
  | cons file files inductionHypothesis =>
    have own := same file List.mem_cons_self
    have further := inductionHypothesis fun later member =>
      same later (List.mem_cons_of_mem _ member)
    obtain ⟨-, present, -⟩ := item_alike own
    simp only [List.map_cons, List.filter_cons, present]
    split
    · simp only [readAll, run_andThen, read_alike own]
      cases (read (Project.item one file)).run one with
      | error unreadable => rfl
      | ok document =>
        simp only [run_andThen, further]
        split <;> rfl
    · exact further

/-- The document of a path is the same where the path and the candidates for its imports show
the same. -/
theorem document_alike
    (same : ∀ file ∈ path :: hierarchicalCandidates ((Logical.normalize path).getD path)
      (options.importName kind), Sighted.seen other file = Sighted.seen one file) :
    (((resolve options kind path).run other).document options).run other =
      (((resolve options kind path).run one).document options).run one := by
  have template := same path List.mem_cons_self
  have imports := readAll_alike fun file member => same file (List.mem_cons_of_mem _ member)
  simp only [resolve_items, document, run_andThen, read_alike template, Sighted.item_path]
  cases (read (Project.item one path)).run one with
  | error unreadable => rfl
  | ok source =>
    simp only [run_andThen, imports]
    split <;> rfl

/-- A path that shows something has a template. -/
theorem resolve_present (options : Options) (kind : ImportsKind) (path : Text) (project : P) :
    ((resolve options kind path).run project).item.present =
      (Sighted.seen project path).isSome := by
  rw [resolve_items, Sighted.item_present]

/-- A file of a document of a path is the path or a candidate for its imports. -/
theorem document_files {project : P} {document : CodeDocument}
    (given : (((resolve options kind path).run project).document options).run project =
      .ok document) {file : Text} (belongs : document.HasFile file) :
    ∃ candidate ∈ path :: hierarchicalCandidates ((Logical.normalize path).getD path)
      (options.importName kind), file = (Logical.normalize candidate).getD candidate := by
  obtain ⟨own, -, imports⟩ := document_run given
  rw [resolve_items] at own imports
  cases belongs with
  | inl same =>
    refine ⟨path, List.mem_cons_self, ?_⟩
    rw [same, own, Sighted.item_path]
  | inr belongs =>
    obtain ⟨source, among, named⟩ := belongs
    cases imports source among with
    | inl default =>
      rw [default] at named
      cases named
    | inr read =>
      obtain ⟨item, listed, -, spelled, -⟩ := read
      obtain ⟨candidate, applies, rfl⟩ := List.mem_map.mp (List.mem_filter.mp listed).1
      refine ⟨candidate, List.mem_cons_of_mem _ applies, ?_⟩
      rw [spelled, Sighted.item_path] at named
      exact (Option.some.inj named).symm

/-- Files of a document are named on one line if its path and the names of its imports are. -/
theorem document_oneLine {project : P} {document : CodeDocument} (inPath : '\n' ∉ path)
    (inName : '\n' ∉ options.importName kind)
    (given : (((resolve options kind path).run project).document options).run project =
      .ok document) : document.NamesOnOneLine := by
  have spelled {file : Text} (oneLine : '\n' ∉ file) :
      '\n' ∉ (Logical.normalize file).getD file := by
    cases normal : Logical.normalize file with
    | none => exact oneLine
    | some canonical =>
      intro member
      exact (Logical.mem_normalize normal member).elim (by decide) oneLine
  have every (file : Text) (belongs : document.HasFile file) : '\n' ∉ file := by
    obtain ⟨candidate, listed, rfl⟩ := document_files given belongs
    apply spelled
    cases List.mem_cons.mp listed with
    | inl same => rwa [same]
    | inr applies => exact newline_not_mem_candidate (spelled inPath) inName applies
  constructor
  · exact every _ (.inl rfl)
  · intro source among file named
    exact every file (.inr ⟨source, among, named⟩)

end TemplateUnit

namespace Failure

/-- The content that is shown of a file is what is seen of it. -/
theorem contentOf_run (project : P) (file : Text) :
    (contentOf file).run project = (Sighted.seen project file).bind fun content =>
      (readText content).toOption := by
  rw [contentOf, run_andThen]
  simp only [itemAt, run, Sighted.item_present]
  cases stands : Sighted.seen project file with
  | none => rfl
  | some content =>
    simp only [Option.isSome_some, ↓reduceIte, run_andThen, textOf, run, text_item, stands,
      Option.bind_some]
    cases readText content <;> rfl

/-- Failures are shown alike where the files of their faults show the same. -/
theorem grouped_alike {α : Type} {fileOf : α → Text} {faults : List α}
    {shown : Option Text → Text × List α → Failure}
    (same : ∀ fault ∈ faults,
      Sighted.seen other (fileOf fault) = Sighted.seen one (fileOf fault)) :
    (each (fun group => (contentOf group.1).andThen fun content => .answer (shown content group))
        (grouped fileOf faults)).run other =
      (each (fun group => (contentOf group.1).andThen fun content => .answer (shown content group))
        (grouped fileOf faults)).run one := by
  rw [run_each, run_each]
  apply List.map_congr_left
  intro group member
  obtain ⟨fault, among, named⟩ := mem_grouped member
  rw [run_andThen, run_andThen, contentOf_run, contentOf_run, named, same fault among]
  rfl

end Failure

namespace CompilationResult

open TemplateUnit

/-- A document is compiled alike where its files show the same. -/
theorem ofDocument_alike {document : CodeDocument} (named : document.NamesOnOneLine)
    (same : ∀ file, document.HasFile file → Sighted.seen other file = Sighted.seen one file) :
    (ofDocument options document).run other = (ofDocument options document).run one := by
  unfold ofDocument
  split
  · rename_i code generated
    split
    · rfl
    · rename_i diagnostics failed
      have accepted : (PageClass.generate document).errors = [] := by rw [generated]
      have refused : Manifest.check options.references (PageClass.generate document).code =
          .error diagnostics := by
        rw [generated]
        exact failed
      rw [run_andThen, run_andThen, Failure.ofDiagnostics, Failure.grouped_alike]
      · rfl
      · intro diagnostic member
        exact same _ (diagnostic_hasFile named accepted refused member)
  · rename_i code errors _ generated
    rw [run_andThen, run_andThen, Failure.ofErrors, Failure.grouped_alike]
    · rfl
    · intro error member
      have listed : error ∈ PageClass.errorsOf document := by
        rw [← PageClass.generate_errors, generated]
        exact member
      exact same _ (error_hasFile listed)

/-- A path is compiled alike where what is watched for it shows the same. -/
theorem attempt_alike (inPath : '\n' ∉ path) (inName : '\n' ∉ options.importName kind)
    (same : ∀ file ∈ ((resolve options kind path).run one).watched,
      Sighted.seen other file = Sighted.seen one file) :
    (attempt options ((resolve options kind path).run other)).run other =
      (attempt options ((resolve options kind path).run one)).run one := by
  have shown := seen_of_watched same
  rw [attempt, attempt, run_andThen, run_andThen, document_alike shown]
  cases given : (((resolve options kind path).run one).document options).run one with
  | error unreadable => rfl
  | ok document =>
    have compiled : (ofDocument options document).run other =
        (ofDocument options document).run one := by
      apply ofDocument_alike (document_oneLine inPath inName given)
      intro file belongs
      obtain ⟨candidate, listed, rfl⟩ := document_files given belongs
      rw [seen_spelled, seen_spelled]
      exact shown candidate listed
    simp only [run_andThen, compiled]
    rfl

end CompilationResult

namespace Outcome

open TemplateUnit

/-- The outcome of a unit on a project as it is. -/
def ofUnitOn (options : Options) (unit : TemplateUnit) (project : P) : Outcome :=
  if unit.item.present then .compiled ((CompilationResult.ofUnit options unit).run project)
  else .notFound

/-- The outcome of a path, resolved and compiled on a project as it is. -/
def on (options : Options) (kind : ImportsKind) (path : Text) (project : P) : Outcome :=
  ofUnitOn options ((resolve options kind path).run project) project

/-- The outcome of a path is the same where what tokens are issued for shows the same. -/
theorem on_alike (inPath : '\n' ∉ path) (inName : '\n' ∉ options.importName kind)
    (same : ∀ file ∈ Cache.targets ((resolve options kind path).run one),
      Sighted.seen other file = Sighted.seen one file) :
    on options kind path other = on options kind path one := by
  have template : Sighted.seen other path = Sighted.seen one path := by
    have target : (Logical.normalize path).getD path ∈
        Cache.targets ((resolve options kind path).run one) := by
      unfold Cache.targets
      split
      · rw [watched_resolve]
        exact List.mem_cons_self
      · rw [resolve_items, Sighted.item_path]
        exact List.mem_cons_self
    have spelled := same _ target
    rwa [seen_spelled, seen_spelled] at spelled
  simp only [on, ofUnitOn, resolve_present, template]
  cases stands : Sighted.seen one path with
  | none => rfl
  | some content =>
    have present : ((resolve options kind path).run one).item.present = true := by
      rw [resolve_present, stands, Option.isSome_some]
    rw [Cache.targets, if_pos present] at same
    simp only [Option.isSome_some, ↓reduceIte, CompilationResult.ofUnit, run_andThen,
      CompilationResult.attempt_alike inPath inName same]
    rfl

end Outcome

namespace Memory

open TemplateUnit

end Memory

end ViewCompiler

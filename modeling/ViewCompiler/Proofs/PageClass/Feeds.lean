import ViewCompiler.Proofs.PageClass.Declarations
import ViewCompiler.Proofs.PageModel.Supplied
import ViewCompiler.Proofs.Directive.Rows

/-!
# No line of a page class holds a line feed

Values are parts of rows, rows hold no line feed, and nothing that is done to a value on
its way into the class brings one in. The paths of files are the only texts that come
from outside; as long as they hold no line feed, the lines of a page class are the lines
of its text.
-/

namespace ViewCompiler

open Text

namespace Text

/-- What an exchange leaves comes from the text or from what is filled in. -/
theorem mem_exchange {mark fill text : Text} {passing : Nat} {char : Char}
    (member : char ∈ exchange mark fill passing text) : char ∈ fill ∨ char ∈ text := by
  fun_induction exchange mark fill passing text with
  | case1 => simp at member
  | case2 _ _ _ inductionHypothesis =>
    exact (inductionHypothesis member).imp_right fun inside => by simp [inside]
  | case3 _ _ _ inductionHypothesis =>
    rcases List.mem_append.mp member with filled | behind
    · exact .inl filled
    · exact (inductionHypothesis behind).imp_right fun inside => by simp [inside]
  | case4 _ _ _ inductionHypothesis =>
    rcases List.mem_cons.mp member with same | behind
    · exact .inr (by simp [same])
    · exact (inductionHypothesis behind).imp_right fun inside => by simp [inside]

/-- A number is written on one line. -/
theorem newline_not_mem_decimal (number : Nat) : '\n' ∉ decimal number := by
  intro member
  have digit := isDigit_of_mem_decimal member
  revert digit
  decide

end Text

/-- The digits of a digest are on one line. -/
theorem Digest.newline_not_mem_hex (digest : Digest) : '\n' ∉ digest.hex := by
  have digit : ∀ value < 16, Nat.digitChar value ≠ '\n' := by decide
  intro member
  obtain ⟨octet, _, inside⟩ := List.mem_flatMap.mp member
  have bound : octet.toNat < 256 := octet.toNat_lt
  simp only [Digest.hexOctet, List.mem_cons, List.not_mem_nil, or_false] at inside
  rcases inside with high | low
  · exact digit _ (by omega) high.symm
  · exact digit _ (by omega) low.symm

namespace PageModel

/-- Directives whose values and whose files are on one line. -/
def OneLine (source : DirectiveSource) : Prop :=
  ∀ file directive, source file directive →
    '\n' ∉ directive.value ∧ ∀ name, file = some name → '\n' ∉ name

variable {source : DirectiveSource} {page : PageModel}

/-- What such a directive supplies is on one line. -/
theorem supplies_oneLine {kind : DirectiveKind} {value : Text} {span : Option Span}
    (single : OneLine source) (supplies : Supplies source kind value span) :
    '\n' ∉ value ∧ ∀ place, span = some place → '\n' ∉ place.file := by
  obtain ⟨file, directive, given, _, rfl, rfl⟩ := supplies
  obtain ⟨onLine, named⟩ := single file directive given
  refine ⟨onLine, ?_⟩
  intro place placed
  obtain ⟨name, same, rfl⟩ := Option.map_eq_some_iff.mp placed
  exact named name same

/-- Filling in the model brings no line feed in. -/
theorem newline_not_mem_substitute {model type : Text} (inModel : '\n' ∉ model)
    (inType : '\n' ∉ type) : '\n' ∉ substitute model type := by
  intro member
  rcases mem_exchange member with filled | kept
  · simp [inModel] at filled
  · exact inType kept

/-- The type of the model is on one line if directives are. -/
theorem newline_not_mem_modelType (supplied : page.SuppliedBy source) (single : OneLine source) :
    '\n' ∉ page.modelType := by
  unfold modelType
  split
  · rename_i model same
    exact (supplies_oneLine single (supplied.model model same)).1
  · decide

/-- The base type of a page is on one line, and so is the file that is answerable for it. -/
theorem baseType_oneLine (supplied : page.SuppliedBy source) (single : OneLine source) :
    '\n' ∉ page.baseType.value ∧ ∀ place, page.baseType.span = some place → '\n' ∉ place.file := by
  have model := newline_not_mem_modelType supplied single
  unfold baseType
  split
  · rename_i base same
    obtain ⟨onLine, named⟩ := supplies_oneLine single (supplied.base base same)
    exact ⟨newline_not_mem_substitute model onLine, named⟩
  · exact ⟨by decide, by simp⟩
  · refine ⟨newline_not_mem_substitute model (by decide), ?_⟩
    intro place placed
    obtain ⟨value, same, located⟩ := Option.bind_eq_some_iff.mp placed
    exact (supplies_oneLine single (supplied.model value same)).2 place located

/-- The type and the name of a property are parts of the value that gave them. -/
theorem injection_oneLine (supplied : page.SuppliedBy source) (single : OneLine source)
    {injection : Injection} (member : injection ∈ page.injections) :
    '\n' ∉ injection.type ∧ '\n' ∉ injection.name ∧
      ∀ place, injection.span = some place → '\n' ∉ place.file := by
  obtain ⟨value, supplies, read⟩ := supplied.injections injection member
  obtain ⟨onLine, named⟩ := supplies_oneLine single supplies
  obtain ⟨_, _, before, mark, sides, type⟩ := injection?_parts read
  rw [sides] at onLine
  refine ⟨fun inside => onLine ?_, fun inside => onLine ?_, named⟩
  · exact List.mem_append_left _ ((trim_sublist before).subset (type ▸ inside))
  · exact List.mem_append_right _ (List.mem_cons_of_mem _ inside)

end PageModel

namespace PageClass

/-- Escaping breaks no line. -/
theorem newline_not_mem_escape {text : Text} (single : '\n' ∉ text) : '\n' ∉ escape text := by
  intro member
  obtain ⟨char, inside, escaped⟩ := List.mem_flatMap.mp member
  have same : char = '\n' := by
    unfold escapeChar at escaped
    split at escaped
    · simp at escaped
    · split at escaped
      · simp at escaped
      · exact (List.mem_singleton.mp escaped).symm
  exact single (same ▸ inside)

/-- The name of a class is on one line, whatever the path. -/
theorem newline_not_mem_className (path : Text) : '\n' ∉ className path := by
  intro member
  have solid := className_solid path '\n' member
  revert solid
  decide

/-- A line and the pragmas around it are on one line each. -/
theorem mapped_single (level : Nat) {span : Option Span} {text : Text} (onLine : '\n' ∉ text)
    (named : ∀ place, span = some place → '\n' ∉ place.file) :
    ∀ line ∈ mapped level span text, '\n' ∉ line := by
  have shifted : '\n' ∉ indented level text := by
    intro member
    rcases List.mem_append.mp member with blank | inside
    · exact absurd (List.eq_of_mem_replicate blank) (by decide)
    · exact onLine inside
  cases span with
  | none => simpa [mapped] using shifted
  | some place =>
    have pragma : '\n' ∉ linePragma place := by
      unfold linePragma
      simp [newline_not_mem_decimal, named place rfl]
    simp [mapped, pragma, shifted]

/-- Every line of a page class is on one line. -/
theorem lines_single {source : DirectiveSource} {page : PageModel} {markup : List (Nat × Text)}
    {path : Text} (content : Text) (supplied : page.SuppliedBy source)
    (single : PageModel.OneLine source) (markupSingle : ∀ entry ∈ markup, '\n' ∉ entry.2)
    (pathSingle : '\n' ∉ path) : ∀ line ∈ lines page markup content path, '\n' ∉ line := by
  have unplaced (place : Span) (placed : none = some place) : '\n' ∉ place.file := by simp at placed
  have plain (level : Nat) {text : Text} (onLine : '\n' ∉ text) : '\n' ∉ indented level text := by
    simpa [mapped] using mapped_single level onLine unplaced
  have within : '\n' ∉ page.namespaceName := by
    unfold PageModel.namespaceName
    split
    · rename_i name same
      exact (PageModel.supplies_oneLine single (supplied.within name same)).1
    · decide
  have header : ∀ line ∈
      ["#pragma checksum \"" ++ path ++ "\" \"\x7bblake3\x7d\" \"" ++
        (Digest.ofOctets (Utf8.encode content)).hex ++ "\"",
      "namespace " ++ page.namespaceName, "\x7b"], '\n' ∉ line := by
    simp [pathSingle, Digest.newline_not_mem_hex, within]
  have opened : ∀ line ∈ page.opened.flatMap (fun opened =>
      mapped 1 opened.span ("using " ++ opened.value ++ ";")), '\n' ∉ line := by
    intro line member
    obtain ⟨name, among, inside⟩ := List.mem_flatMap.mp member
    obtain ⟨value, named⟩ := PageModel.supplies_oneLine single (supplied.opened name among)
    exact mapped_single 1 (by simp [value]) named line inside
  have route : ∀ line ∈ page.route.toList.map (fun route =>
      indented 1 ("[RazorPage(\"" ++ escape route ++ "\")]")), '\n' ∉ line := by
    intro line member
    obtain ⟨value, among, rfl⟩ := List.mem_map.mp member
    obtain ⟨span, supplies⟩ := supplied.route value (Option.mem_toList.mp among)
    exact plain 1 (by simp [newline_not_mem_escape (PageModel.supplies_oneLine single supplies).1])
  have tagHelpers : ∀ line ∈ page.tagHelpers.map (fun helper =>
      indented 1 ("[AddTagHelper(\"" ++ escape helper ++ "\")]")), '\n' ∉ line := by
    intro line member
    obtain ⟨value, among, rfl⟩ := List.mem_map.mp member
    obtain ⟨span, supplies⟩ := supplied.tagHelpers value among
    exact plain 1 (by simp [newline_not_mem_escape (PageModel.supplies_oneLine single supplies).1])
  have declared : ∀ line ∈ mapped 1 page.baseType.span
      ("public class " ++ className path ++ " : " ++ page.baseType.value), '\n' ∉ line := by
    obtain ⟨base, named⟩ := PageModel.baseType_oneLine supplied single
    exact mapped_single 1 (by simp [newline_not_mem_className, base]) named
  have lead : ∀ line ∈ page.tagHelperPrefix.toList.map (fun lead =>
      indented 2 ("public const string TagHelperPrefix = \"" ++ escape lead ++ "\";")),
        '\n' ∉ line := by
    intro line member
    obtain ⟨value, among, rfl⟩ := List.mem_map.mp member
    obtain ⟨span, supplies⟩ := supplied.tagHelperPrefix value (Option.mem_toList.mp among)
    exact plain 2 (by simp [newline_not_mem_escape (PageModel.supplies_oneLine single supplies).1])
  have properties : ∀ line ∈ page.injections.flatMap (fun injection =>
      mapped 2 injection.span (injectionLine page.modelType injection)), '\n' ∉ line := by
    intro line member
    obtain ⟨injection, among, inside⟩ := List.mem_flatMap.mp member
    obtain ⟨type, name, named⟩ := PageModel.injection_oneLine supplied single among
    have filled := PageModel.newline_not_mem_substitute
      (PageModel.newline_not_mem_modelType supplied single) type
    have onLine : '\n' ∉ injectionLine page.modelType injection := by
      unfold injectionLine
      simp [filled, name]
    exact mapped_single 2 onLine named line inside
  have literals : ∀ line ∈ ((markup.map (·.2)).filter isWritten).map (fun text =>
      indented 3 ("WriteLiteral(\"" ++ escape text ++ "\");")), '\n' ∉ line := by
    intro line member
    obtain ⟨text, kept, rfl⟩ := List.mem_map.mp member
    obtain ⟨entry, among, rfl⟩ := List.mem_map.mp (List.mem_filter.mp kept).1
    exact plain 3 (by simp [newline_not_mem_escape (markupSingle entry among)])
  unfold lines
  simp only [List.forall_mem_append]
  exact ⟨⟨⟨⟨⟨⟨⟨⟨⟨⟨header, opened⟩, route⟩, tagHelpers⟩, declared⟩, by decide⟩, lead⟩, properties⟩,
    by decide⟩, literals⟩, by decide⟩

end PageClass

/-- The path of the template and the files of its imports are on one line. -/
def CodeDocument.NamesOnOneLine (document : CodeDocument) : Prop :=
  '\n' ∉ document.path ∧ ∀ source ∈ document.imports, ∀ file, source.file = some file → '\n' ∉ file

variable {document : CodeDocument}

/-- Directives are on one line, as their rows are. -/
theorem CodeDocument.directives_oneLine (named : document.NamesOnOneLine) :
    PageModel.OneLine document.directives := by
  have row {source : SourceDocument} {file : Option Text} {inImport : Bool} {directive : Directive}
      (member : directive ∈ (Scanned.ofDocument source file inImport).directives) :
      '\n' ∉ directive.value := by
    obtain ⟨_, row, among, part, _⟩ := Scanned.directive_parts member
    intro inside
    exact newline_not_mem_row among (part.subset inside)
  rintro file directive (⟨source, among, rfl, member⟩ | ⟨rfl, member⟩)
  · exact ⟨row member, named.2 source among⟩
  · refine ⟨row member, ?_⟩
    rintro name ⟨⟩
    exact named.1

namespace PageClass

/-- A document has a class unless it has errors. -/
theorem generate_errors (document : CodeDocument) :
    (generate document).errors = errorsOf document := by
  cases errors : errorsOf document with
  | nil => simp only [generate, errors]
  | cons error more => simp only [generate, errors]

/-- The code of a document without errors is the class of its page. -/
theorem generate_code (accepted : (generate document).errors = []) :
    (generate document).code =
      render (modelOf document) (scanTemplate document).markup document.source.content
        document.path := by
  rw [generate_errors] at accepted
  simp only [generate, accepted]

/-- With errors there is no code. -/
theorem generate_refused (faulty : (generate document).errors ≠ []) :
    (generate document).code = [] := by
  rw [generate_errors] at faulty
  obtain ⟨error, more, shape⟩ := List.exists_cons_of_ne_nil faulty
  simp only [generate, shape]

/-- The class of a document without errors is read as what its page declares. -/
theorem generate_read (named : document.NamesOnOneLine)
    (accepted : (generate document).errors = []) :
    (Text.lines (generate document).code).map ClassLine.read =
      declarations (modelOf document) (scanTemplate document).markup document.path := by
  have supplied := modelOf_supplied document
  have markup : ∀ entry ∈ (scanTemplate document).markup, '\n' ∉ entry.2 := by
    intro entry member
    obtain ⟨row, among, part⟩ := Scanned.markup_parts member
    intro inside
    exact newline_not_mem_row among (part.subset inside)
  have single := lines_single document.source.content supplied
    (CodeDocument.directives_oneLine named) markup named.1
  have solid : ∀ injection ∈ (modelOf document).injections,
      ∀ char ∈ injection.name, isBlank char = false := by
    intro injection member
    obtain ⟨value, _, read⟩ := supplied.injections injection member
    exact (PageModel.injection?_parts read).2.1
  rw [generate_code accepted, render, lines_feeds _ single, List.map_map,
    ← lines_read _ _ document.source.content _ solid]
  exact List.map_congr_left fun line _ => ClassLine.read_chopReturn line

end PageClass

end ViewCompiler

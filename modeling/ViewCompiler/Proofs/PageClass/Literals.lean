import Mathlib.Data.List.DropRight
import ViewCompiler.Proofs.PageClass.Feeds

/-!
# Markup comes back from its literals

The body of a page class writes the markup of the template, one literal for each line that is
not blank. A literal is read from its first character on: a backslash stands for the character
behind it, and a quote ends it. Read in this way, every literal ends at the quote that was put
behind it, and what it stands for is the line it was made of. So the literals of the body are
the lines of the template that are no directives and not blank, in their order. Imports have no
part in them.

The body is what stands behind the last line that begins a method. Nothing before it begins a
literal unless the name of a file has a line feed to begin a line of its own with.
-/

namespace ViewCompiler

open Text

/-- The lines of the template that are no directives and not blank. -/
def CodeDocument.shownLines (document : CodeDocument) : List Text :=
  let directives := (PageClass.scanTemplate document).directives
  let others := (rows document.source.content).zipIdx.filter fun entry =>
    entry.2 ∉ directives.map (·.line)
  (others.map fun entry => chopReturn entry.1).filter fun line => line.any fun char => !isBlank char

namespace PageClass

/-- What follows the opening quote on a row that writes a literal. -/
def opensLiteral? (row : Text) : Option Text := afterLead? "WriteLiteral(\"" (trimStart row)

/-- What a literal stands for, and what follows its closing quote. -/
def readLiteral? : Text → Option (Text × Text)
  | [] => none
  | '"' :: after => some ([], after)
  | ['\\'] => none
  | '\\' :: char :: rest => (readLiteral? rest).map fun (text, after) => (char :: text, after)
  | char :: rest => (readLiteral? rest).map fun (text, after) => (char :: text, after)

/-- The row that begins the method that writes the markup. -/
def methodRow : Text := indented 2 "public override async Task ExecuteAsync()"

/-- The rows behind the last one that begins a method. -/
def bodyOf (rows : List Text) : List Text := rows.rtakeWhile (· ≠ methodRow)

/-- A literal is read as the text that was escaped in it, up to the quote behind it. -/
theorem readLiteral?_escape (text after : Text) :
    readLiteral? (escape text ++ '"' :: after) = some (text, after) := by
  induction text with
  | nil => rfl
  | cons char text inductionHypothesis =>
    have cut : escape (char :: text) = escapeChar char ++ escape text := List.flatMap_cons
    rw [cut, List.append_assoc]
    by_cases backslash : char = '\\'
    · simp [backslash, escapeChar, readLiteral?, inductionHypothesis]
    · by_cases quote : char = '"'
      · simp [quote, escapeChar, readLiteral?, inductionHypothesis]
      · simp [backslash, quote, escapeChar, readLiteral?, inductionHypothesis]

/-- Indentation is not seen. -/
theorem trimStart_indented (level : Nat) (first : Char) (text : Text)
    (solid : isBlank first = false) : trimStart (indented level (first :: text)) = first :: text := by
  have blank : ∀ char ∈ List.replicate (4 * level) ' ', isBlank char = true := by
    intro char member
    obtain rfl := List.eq_of_mem_replicate member
    decide
  rw [trimStart, indented, List.dropWhile_append_of_pos blank, List.dropWhile_cons_of_neg (by simp [solid])]

/-- A row that writes a literal opens it. -/
theorem opensLiteral?_literal (text : Text) :
    opensLiteral? (indented 3 ("WriteLiteral(\"" ++ escape text ++ "\");")) =
      some (escape text ++ '"' :: ");") := by
  have shown : trimStart (indented 3 ("WriteLiteral(\"" ++ escape text ++ "\");")) =
      "WriteLiteral(\"" ++ (escape text ++ '"' :: ");") := by
    simpa using trimStart_indented 3 'W' ("riteLiteral(\"" ++ escape text ++ "\");") (by decide)
  rw [opensLiteral?, shown, afterLead?_append]

/-- No other row does. -/
theorem opensLiteral?_other (level : Nat) (first : Char) (text : Text)
    (solid : isBlank first = false) (other : 'W' ≠ first) :
    opensLiteral? (indented level (first :: text)) = none := by
  rw [opensLiteral?, trimStart_indented level first text solid]
  exact if_neg other

/-- Nor do the pragmas around one. -/
theorem mapped_other (level : Nat) (span : Option Span) (first : Char) (text : Text)
    (solid : isBlank first = false) (other : 'W' ≠ first) :
    ∀ row ∈ mapped level span (first :: text), opensLiteral? row = none := by
  have own := opensLiteral?_other level first text solid other
  cases span with
  | none => simpa [mapped] using own
  | some place =>
    simp only [mapped, List.forall_mem_cons, List.not_mem_nil, false_imp_iff, implies_true, and_true]
    exact ⟨rfl, own, rfl⟩

/-- The rows of the body: one literal for each line of markup that is not blank. -/
def bodyRows (markup : List (Nat × Text)) : List Text :=
  indented 2 "\x7b" :: (((markup.map (·.2)).filter isWritten).map (fun text =>
    indented 3 ("WriteLiteral(\"" ++ escape text ++ "\");")) ++
  [indented 2 "\x7d", indented 1 "\x7d", "\x7d"])

/-- A page class ends in its body, and no line before it opens a literal. -/
theorem lines_body (page : PageModel) (markup : List (Nat × Text)) (source path : Text) :
    ∃ front, lines page markup source path = front ++ methodRow :: bodyRows markup ∧
      ∀ row ∈ front, opensLiteral? row = none := by
  have opened : ∀ row ∈ page.opened.flatMap (fun opened =>
      mapped 1 opened.span ("using " ++ opened.value ++ ";")), opensLiteral? row = none := by
    intro row member
    obtain ⟨name, -, inside⟩ := List.mem_flatMap.mp member
    exact mapped_other 1 name.span 'u' ("sing " ++ name.value ++ ";") (by decide) (by decide) row inside
  have route : ∀ row ∈ page.route.toList.map (fun route =>
      indented 1 ("[RazorPage(\"" ++ escape route ++ "\")]")), opensLiteral? row = none := by
    intro row member
    obtain ⟨value, -, rfl⟩ := List.mem_map.mp member
    exact opensLiteral?_other 1 '[' ("RazorPage(\"" ++ escape value ++ "\")]") (by decide) (by decide)
  have tagHelpers : ∀ row ∈ page.tagHelpers.map (fun helper =>
      indented 1 ("[AddTagHelper(\"" ++ escape helper ++ "\")]")), opensLiteral? row = none := by
    intro row member
    obtain ⟨value, -, rfl⟩ := List.mem_map.mp member
    exact opensLiteral?_other 1 '[' ("AddTagHelper(\"" ++ escape value ++ "\")]") (by decide)
      (by decide)
  have declared : ∀ row ∈ mapped 1 page.baseType.span
      ("public class " ++ className path ++ " : " ++ page.baseType.value),
        opensLiteral? row = none :=
    mapped_other 1 _ 'p' ("ublic class " ++ className path ++ " : " ++ page.baseType.value)
      (by decide) (by decide)
  have lead : ∀ row ∈ page.tagHelperPrefix.toList.map (fun lead =>
      indented 2 ("public const string TagHelperPrefix = \"" ++ escape lead ++ "\";")),
        opensLiteral? row = none := by
    intro row member
    obtain ⟨value, -, rfl⟩ := List.mem_map.mp member
    exact opensLiteral?_other 2 'p' ("ublic const string TagHelperPrefix = \"" ++ escape value ++ "\";")
      (by decide) (by decide)
  have properties : ∀ row ∈ page.injections.flatMap (fun injection =>
      mapped 2 injection.span (injectionLine page.modelType injection)),
        opensLiteral? row = none := by
    intro row member
    obtain ⟨injection, -, inside⟩ := List.mem_flatMap.mp member
    exact mapped_other 2 injection.span '[' _ (by decide) (by decide) row inside
  unfold lines
  rw [List.append_assoc, List.append_assoc]
  refine ⟨_, rfl, ?_⟩
  simp only [List.forall_mem_append]
  refine ⟨⟨⟨⟨⟨⟨⟨?_, opened⟩, route⟩, tagHelpers⟩, declared⟩, by decide⟩, lead⟩, properties⟩
  simp only [List.forall_mem_cons, List.not_mem_nil, false_imp_iff, implies_true, and_true]
  exact ⟨rfl, rfl, rfl⟩

/-- Rows are cut from a text line by line. -/
theorem rows_feeds_append (written : List Text) (rest : Text) :
    rows (written.flatMap (· ++ ['\n']) ++ rest) = written.flatMap rows ++ rows rest := by
  induction written with
  | nil => rfl
  | cons line written inductionHypothesis =>
    simp only [List.flatMap_cons, List.append_assoc, List.cons_append, List.nil_append]
    rw [← inductionHypothesis]
    exact pieces_mark line _ rfl

/-- The body of a class is behind the row that begins its method, whatever is before it. -/
theorem bodyOf_append (before behind : List Text) (plain : ∀ row ∈ behind, row ≠ methodRow) :
    bodyOf (before ++ methodRow :: behind) = behind := by
  have passed : ∀ row ∈ behind.reverse, decide (row ≠ methodRow) = true := by
    simpa using plain
  rw [bodyOf, List.rtakeWhile, List.reverse_append, List.reverse_cons, List.append_assoc,
    List.takeWhile_append_of_pos passed]
  simp

/-- Lines that have no line feed are rows. -/
theorem flatMap_rows {written : List Text} (single : ∀ line ∈ written, '\n' ∉ line) :
    written.flatMap rows = written := by
  have own : ∀ line ∈ written, rows line = [line] := by
    intro line member
    refine pieces_of_free fun char inside => beq_false_of_ne ?_
    rintro rfl
    exact single line member inside
  rw [List.flatMap_congr own, List.flatMap_singleton']

/-- The body has no line feeds but those between its rows. -/
theorem bodyRows_single {markup : List (Nat × Text)} (single : ∀ entry ∈ markup, '\n' ∉ entry.2) :
    ∀ row ∈ methodRow :: bodyRows markup, '\n' ∉ row := by
  have literals : ∀ row ∈ ((markup.map (·.2)).filter isWritten).map (fun text =>
      indented 3 ("WriteLiteral(\"" ++ escape text ++ "\");")), '\n' ∉ row := by
    intro row member
    obtain ⟨text, kept, rfl⟩ := List.mem_map.mp member
    obtain ⟨entry, among, rfl⟩ := List.mem_map.mp (List.mem_filter.mp kept).1
    have onLine : '\n' ∉ ("WriteLiteral(\"" ++ escape entry.2 ++ "\");" : Text) := by
      simp [newline_not_mem_escape (single entry among)]
    have unplaced : ∀ row ∈ mapped 3 none _, '\n' ∉ row := mapped_single 3 onLine (by simp)
    simpa [mapped] using unplaced
  simp only [bodyRows, List.forall_mem_cons, List.forall_mem_append]
  exact ⟨by decide, by decide, literals, by decide⟩

/-- The rows of the body open one literal for each line of markup that is not blank. -/
theorem bodyRows_literals (markup : List (Nat × Text)) :
    (bodyRows markup).filterMap opensLiteral? =
      ((markup.map (·.2)).filter isWritten).map fun text => escape text ++ '"' :: ");" := by
  have brace : opensLiteral? (indented 2 "\x7b") = none := by decide
  have closing : [indented 2 "\x7d", indented 1 "\x7d", ("\x7d" : Text)].filterMap opensLiteral? = [] := by
    decide
  rw [bodyRows, List.filterMap_cons_none brace, List.filterMap_append, closing, List.append_nil,
    List.filterMap_map]
  have opened : (opensLiteral? ∘ fun text : Text =>
      indented 3 ("WriteLiteral(\"" ++ escape text ++ "\");")) =
        fun text => some (escape text ++ '"' :: ");") :=
    funext opensLiteral?_literal
  rw [opened, List.filterMap_eq_map']

/-- No row of the body begins a method. -/
theorem bodyRows_plain (markup : List (Nat × Text)) :
    ∀ row ∈ bodyRows markup ++ [[]], row ≠ methodRow := by
  have literals : ∀ row ∈ ((markup.map (·.2)).filter isWritten).map (fun text =>
      indented 3 ("WriteLiteral(\"" ++ escape text ++ "\");")), row ≠ methodRow := by
    intro row member same
    obtain ⟨text, -, rfl⟩ := List.mem_map.mp member
    have opened := opensLiteral?_literal text
    have opening : opensLiteral? methodRow = none := by decide
    rw [same, opening] at opened
    cases opened
  simp only [bodyRows, List.cons_append, List.append_assoc, List.forall_mem_cons,
    List.forall_mem_append]
  exact ⟨by decide, literals, by decide⟩

/-- A line is written unless it is blank. -/
theorem isWritten_eq (line : Text) : isWritten line = line.any fun char => !isBlank char := by
  rw [Bool.eq_iff_iff]
  simp only [isWritten, Bool.not_eq_true', List.isEmpty_eq_false_iff, List.any_eq_true]
  constructor
  · intro kept
    by_contra! blank
    have trimmed : trim (line ++ []) = trim [] :=
      trim_append_left [] fun char member => by simpa using blank char member
    rw [List.append_nil] at trimmed
    exact kept trimmed
  · rintro ⟨char, member, solid⟩ empty
    obtain ⟨⟨tail, parts, blank⟩, -⟩ := trimEnd_parts (trimStart line)
    have nothing : trimEnd (trimStart line) = [] := empty
    rw [nothing, List.nil_append] at parts
    have halves := List.takeWhile_append_dropWhile (p := isBlank) (l := line)
    rw [← halves, List.mem_append] at member
    have faint : isBlank char = true := by
      rcases member with before | behind
      · exact List.all_eq_true.mp List.all_takeWhile char before
      · exact blank char (parts ▸ behind)
    simp [faint] at solid

/-- The markup that is written is that of the template. -/
theorem markup_shown {document : CodeDocument} (accepted : (scanTemplate document).errors = []) :
    ((scanTemplate document).markup.map (·.2)).filter isWritten = document.shownLines := by
  have rows_ := Scanned.markup_rows accepted
  have texts : (scanTemplate document).markup = _ := rows_
  rw [texts, List.map_map, CodeDocument.shownLines, funext isWritten_eq]
  rfl

/-- The rows of a page class are those of its body behind others. These open no literals, as
long as no file has a line feed in its name. -/
theorem generate_rows {document : CodeDocument} (accepted : (generate document).errors = []) :
    ∃ front, rows (generate document).code =
        front ++ methodRow :: (bodyRows (scanTemplate document).markup ++ [[]]) ∧
      (document.NamesOnOneLine → ∀ row ∈ front, opensLiteral? row = none) := by
  have markup : ∀ entry ∈ (scanTemplate document).markup, '\n' ∉ entry.2 := by
    intro entry member
    obtain ⟨row, among, part⟩ := Scanned.markup_parts member
    exact fun inside => newline_not_mem_row among (part.subset inside)
  obtain ⟨front, parts, silent⟩ := lines_body (modelOf document) (scanTemplate document).markup
    document.source.content document.path
  refine ⟨front.flatMap rows, ?_, ?_⟩
  · have ended := rows_feeds (methodRow :: bodyRows (scanTemplate document).markup)
      (bodyRows_single markup)
    rw [generate_code accepted, render, parts, List.flatMap_append, rows_feeds_append, ended]
    rfl
  · intro named
    have single := lines_single document.source.content (modelOf_supplied document)
      (CodeDocument.directives_oneLine named) markup named.1
    rw [parts] at single
    rw [flatMap_rows fun row member => single row (List.mem_append_left _ member)]
    exact silent

/-- Of a document without errors, every row of the body that opens a literal closes it at its
end, and the literals stand for the lines of the template that are no directives and not blank,
in their order. As long as no file has a line feed in its name, no other row of the class opens
a literal. -/
theorem literals_shown (document : CodeDocument) (accepted : (generate document).errors = []) :
    let rows := Text.rows (generate document).code
    let shown := document.shownLines.map fun line => some (line, (");" : Text))
    ((bodyOf rows).filterMap opensLiteral?).map readLiteral? = shown ∧
      (document.NamesOnOneLine → (rows.filterMap opensLiteral?).map readLiteral? = shown) := by
  intro rows shown
  obtain ⟨front, (parts : rows = _), silent⟩ := generate_rows accepted
  have templateSilent : (scanTemplate document).errors = [] := by
    rw [generate_errors] at accepted
    exact (List.append_eq_nil_iff.mp accepted).2
  have read : ((bodyRows (scanTemplate document).markup ++ [[]]).filterMap opensLiteral?).map
      readLiteral? = shown := by
    have nothing : opensLiteral? [] = none := rfl
    rw [List.filterMap_append, bodyRows_literals, markup_shown templateSilent,
      List.filterMap_cons_none nothing, List.filterMap_nil, List.append_nil, List.map_map]
    exact List.map_congr_left fun line _ => readLiteral?_escape line _
  constructor
  · rw [parts, bodyOf_append _ _ (bodyRows_plain _), read]
  · intro named
    have before : front.filterMap opensLiteral? = [] :=
      List.filterMap_eq_nil_iff.mpr (silent named)
    have opening : opensLiteral? methodRow = none := by decide
    have whole : rows.filterMap opensLiteral? =
        (bodyRows (scanTemplate document).markup ++ [[]]).filterMap opensLiteral? := by
      rw [parts, List.filterMap_append, before, List.nil_append, List.filterMap_cons_none opening]
    rw [whole, read]

/-- Quotes and backslashes come back, the directive and the blank line are left out, and what
reads as a directive inside of a block is markup. -/
theorem literals_shown_quotes :
    let document : CodeDocument := ⟨⟨some "/a.cshtml",
        "@model A\r\n<a title=\"\\\">\r\n \r\n@\x7b\r\n@model B\r\n\x7d"⟩,
      [⟨some "/_ViewImports.cshtml", "<p>\n@using App"⟩], "/a.cshtml"⟩
    (generate document).errors = [] ∧
      ((bodyOf (Text.rows (generate document).code)).filterMap opensLiteral?).map readLiteral? =
        (["<a title=\"\\\">", "@\x7b", "@model B", "\x7d"] : List Text).map
          fun line => some (line, (");" : Text)) := by
  intro document
  have accepted : (generate document).errors = [] := by decide +kernel
  have shown : document.shownLines = ["<a title=\"\\\">", "@\x7b", "@model B", "\x7d"] := by
    decide +kernel
  have settled := (literals_shown document accepted).1
  rw [shown] at settled
  exact ⟨accepted, settled⟩

end PageClass

end ViewCompiler

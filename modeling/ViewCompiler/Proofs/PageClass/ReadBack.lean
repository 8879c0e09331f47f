import ViewCompiler.PageClass
import ViewCompiler.Manifest
import ViewCompiler.Proofs.Text.Cutting
import ViewCompiler.Proofs.Text.Decimal
import ViewCompiler.Proofs.Text.Trimming

/-!
# The lines of a page class read back

A page class is written as lines of text and read as declarations. Each kind of line is
read as the declaration that it was written for, with the values that stand on it: the
namespace and the base type without blanks at their ends, everything else as it is. Markup
and the frame of the class declare nothing, whatever the markup says.

`lines_read` puts the kinds together: the lines of a page class are read as its
declarations, each between the pragmas that its place asks for.
-/

namespace ViewCompiler

open Text

namespace ClassLine

/-- A carriage return at the end of a line is not seen. -/
theorem read_chopReturn (raw : Text) : read (chopReturn raw) = read raw := by
  simp only [read, trim_chopReturn]

/-- Indentation is not seen. -/
theorem read_indented (level : Nat) (text : Text) :
    read (PageClass.indented level text) = read text := by
  have blank : ∀ char ∈ List.replicate (4 * level) ' ', isBlank char = true := by
    intro char member
    obtain rfl := List.eq_of_mem_replicate member
    decide
  simp only [read, PageClass.indented, trim_append_left text blank]

/-- A line that is no pragma when it is trimmed is read as a declaration. -/
theorem read_declaration {raw line : Text} (trimmed : trim raw = line)
    (noPlace : afterLead? "#line " line = none) (noPragma : beginsWith "#pragma" line = false) :
    read raw = declaration line := by
  simp only [read, trimmed, noPlace, noPragma, Bool.false_eq_true, ↓reduceIte]

/-- What stands between a lead and a tail is found. -/
theorem between?_append (lead middle tail : Text) :
    between? lead tail (lead ++ middle ++ tail) = some middle := by
  simp [between?]

/-- The namespace that is opened, as it stands. -/
theorem read_using (name : Text) : read ("using " ++ name ++ ";") = .opens name := by
  have trimmed : trim ("using " ++ name ++ ";") = "using " ++ name ++ ";" :=
    trim_solid 'u' ';' ("sing " ++ name) (by decide) (by decide)
  have found := between?_append "using " name ";"
  have noNamespace : afterLead? "namespace " ("using " ++ name ++ ";") = none := rfl
  rw [read_declaration trimmed rfl rfl]
  simp only [declaration, noNamespace, found]

/-- The argument of a route attribute, as it stands. -/
theorem read_route (value : Text) : read ("[RazorPage(\"" ++ value ++ "\")]") = .route value := by
  have trimmed : trim ("[RazorPage(\"" ++ value ++ "\")]") =
      "[RazorPage(\"" ++ value ++ "\")]" := by
    simpa using trim_solid '[' ']' ("RazorPage(\"" ++ value ++ "\")")
      (by decide) (by decide)
  rw [read_declaration trimmed rfl rfl]
  simp [declaration, between?, attribute?, afterLead?]

/-- The argument of a tag helper attribute, as it stands. -/
theorem read_tagHelper (value : Text) :
    read ("[AddTagHelper(\"" ++ value ++ "\")]") = .tagHelper value := by
  have trimmed : trim ("[AddTagHelper(\"" ++ value ++ "\")]") =
      "[AddTagHelper(\"" ++ value ++ "\")]" := by
    simpa using trim_solid '[' ']' ("AddTagHelper(\"" ++ value ++ "\")")
      (by decide) (by decide)
  rw [read_declaration trimmed rfl rfl]
  simp [declaration, between?, attribute?, afterLead?]

/-- The type of a property, whatever blanks stand in it, and its name, in which none do. -/
theorem read_injection (type name : Text) (solid : ∀ char ∈ name, isBlank char = false) :
    read ("[RazorInject] public " ++ type ++ " " ++ name ++ " \x7b get; private set; \x7d") =
      .injects type name := by
  have trimmed :
      trim ("[RazorInject] public " ++ type ++ " " ++ name ++ " \x7b get; private set; \x7d") =
      "[RazorInject] public " ++ (type ++ ' ' :: name) ++ " \x7b get; private set; \x7d" := by
    simpa using trim_solid '[' '}'
      ("RazorInject] public " ++ type ++ " " ++ name ++ " \x7b get; private set; ")
      (by decide) (by decide)
  have found :=
    between?_append "[RazorInject] public " (type ++ ' ' :: name) " \x7b get; private set; \x7d"
  have spaceless : ∀ char ∈ name, (char == ' ') = false := by
    intro char member
    have differs : char ≠ ' ' := fun same => absurd (solid char member) (by rw [same]; decide)
    simpa using differs
  have divided : cutLast? (· == ' ') (type ++ ' ' :: name) = some (type, name) :=
    cutLast?_append ' ' (by decide) spaceless
  rw [read_declaration trimmed rfl rfl]
  simp only [declaration, found, divided]
  simp [between?, attribute?, afterLead?]

/-- The namespace of the class, without blanks at its ends. Of blanks alone there is
nothing left that could be read. -/
theorem read_namespace (name : Text) :
    read ("namespace " ++ name) = if trimEnd name = [] then .other else .within (trim name) := by
  have trimmed : trim ("namespace " ++ name) = trimEnd ("namespace " ++ name) :=
    trim_cons ("amespace " ++ name) (by decide)
  rw [trimEnd_append] at trimmed
  by_cases empty : trimEnd name = []
  · rw [if_pos empty] at trimmed ⊢
    rw [read_declaration trimmed (by decide) (by decide)]
    decide
  · rw [if_neg empty] at trimmed ⊢
    rw [read_declaration trimmed rfl rfl]
    simp only [declaration, afterLead?_append, trim_trimEnd]

/-- What follows the lead of a class is divided into its name and its base type. -/
theorem declaration_class (rest : Text) :
    declaration ("public class " ++ rest) =
      match cutFirst? " : " rest with
      | some (name, base) => .declares (trim name) (trim base)
      | none => .declares (trim rest) [] := by
  have noNamespace : afterLead? "namespace " ("public class " ++ rest) = none := rfl
  have noUsing : between? "using " ";" ("public class " ++ rest) = none := rfl
  have noRoute : attribute? "RazorPage" ("public class " ++ rest) = none := rfl
  have noHelper : attribute? "AddTagHelper" ("public class " ++ rest) = none := rfl
  cases divided : cutFirst? " : " rest <;>
    simp only [declaration, noNamespace, noUsing, noRoute, noHelper, afterLead?_append, divided]

/-- The class and its base type, without blanks at the ends of the type. Of a base type
of blanks alone there is nothing left, and what divides it from the class is read as
part of the name. -/
theorem read_class (name base : Text) (solid : ∀ char ∈ name, isBlank char = false) :
    read ("public class " ++ name ++ " : " ++ base) =
      if trimEnd base = [] then .declares (trim (name ++ " :")) []
      else .declares (trim name) (trim base) := by
  have spaceless : ' ' ∉ name := fun member => absurd (solid ' ' member) (by decide)
  have trimmed : trim ("public class " ++ name ++ " : " ++ base) =
      trimEnd ("public class " ++ name ++ " : " ++ base) :=
    trim_cons ("ublic class " ++ name ++ " : " ++ base) (by decide)
  rw [trimEnd_append] at trimmed
  by_cases empty : trimEnd base = []
  · have colon : trimEnd ("public class " ++ name ++ " : ") =
        "public class " ++ (name ++ " :") := by
      rw [trimEnd_append, if_neg (by decide), List.append_assoc]
      rfl
    have undivided : cutFirst? " : " (name ++ " :") = none :=
      (cutFirst?_append ' ' ": " name " :" spaceless).trans rfl
    rw [if_pos empty] at trimmed ⊢
    rw [read_declaration (trimmed.trans colon) rfl rfl, declaration_class, undivided]
  · have divided : cutFirst? " : " (name ++ (" : " ++ trimEnd base)) =
        some (name, trimEnd base) := by
      have passed := cutFirst?_append ' ' ": " name (" : " ++ trimEnd base) spaceless
      have found : cutFirst? " : " (" : " ++ trimEnd base) = some ([], trimEnd base) := rfl
      exact (passed.trans (congrArg (Option.map _) found)).trans (by simp)
    have shape : "public class " ++ name ++ " : " ++ trimEnd base =
        "public class " ++ (name ++ (" : " ++ trimEnd base)) := by simp only [List.append_assoc]
    rw [if_neg empty, shape] at trimmed
    rw [if_neg empty, read_declaration trimmed rfl rfl, declaration_class, divided]
    exact congrArg (ClassLine.declares (trim name)) (trim_trimEnd base)

/-- The digits that a text begins with are found, with the mark behind them. -/
theorem digitsThen?_decimal (number : Nat) (first : Char) (mark rest : Text)
    (below : first.toNat < 0x30) :
    digitsThen? (first :: mark) (decimal number ++ ((first :: mark) ++ rest)) =
      some (decimal number, rest) := by
  have digits : ∀ char ∈ decimal number, isDecimalDigit char = true := by
    intro char member
    exact isDecimalDigit_of_isDigit (isDigit_of_mem_decimal member)
  have ends : isDecimalDigit first = false := isDecimalDigit_of_lt below
  have taken : (decimal number ++ ((first :: mark) ++ rest)).takeWhile isDecimalDigit =
      decimal number := by
    rw [List.takeWhile_append_of_pos digits, List.cons_append,
      List.takeWhile_cons_of_neg (by simp [ends]), List.append_nil]
  have dropped : (decimal number ++ ((first :: mark) ++ rest)).dropWhile isDecimalDigit =
      (first :: mark) ++ rest := by
    rw [List.dropWhile_append_of_pos digits, List.cons_append,
      List.dropWhile_cons_of_neg (by simp [ends])]
  have present : (decimal number).isEmpty = false := by simpa using decimal_ne_nil number
  simp only [digitsThen?, taken, dropped, present, afterLead?_append]
  rfl

/-- Digits that were written for a number of 64 bits denote it. -/
theorem numberOf_decimal {number : Nat} (bounded : number < 0x10000000000000000) :
    numberOf (decimal number) = number := by
  simp only [numberOf, number?_decimal, if_pos bounded]

end ClassLine

/-- The place that the pragma of a span names when it is read: the file as it is, and the
numbers as far as they have 64 bits. -/
def Span.named (span : Span) : Mapping :=
  ⟨span.file, ClassLine.numberOf (decimal span.line), ClassLine.numberOf (decimal span.column),
    ClassLine.numberOf (decimal span.line), ClassLine.numberOf (decimal span.endColumn)⟩

namespace ClassLine

/-- The pragma of a span names its place. -/
theorem span?_linePragma (span : Span) : span? (PageClass.linePragma span) = some span.named := by
  have shape : PageClass.linePragma span =
      "#line (" ++ (decimal span.line ++ ("," ++ (decimal span.column ++ (")-(" ++
        (decimal span.line ++ ("," ++ (decimal span.endColumn ++ (") \"" ++
          (span.file ++ "\""))))))))) := by
    unfold PageClass.linePragma
    simp only [List.append_assoc]
  have line (rest : Text) :
      digitsThen? "," (decimal span.line ++ ("," ++ rest)) = some (decimal span.line, rest) :=
    digitsThen?_decimal span.line ',' [] rest (by decide)
  have column (rest : Text) :
      digitsThen? ")-(" (decimal span.column ++ (")-(" ++ rest)) =
        some (decimal span.column, rest) :=
    digitsThen?_decimal span.column ')' "-(" rest (by decide)
  have endColumn (rest : Text) :
      digitsThen? ") \"" (decimal span.endColumn ++ (") \"" ++ rest)) =
        some (decimal span.endColumn, rest) :=
    digitsThen?_decimal span.endColumn ')' " \"" rest (by decide)
  rw [shape]
  simp only [span?, afterLead?_append, line, column, endColumn, beforeTail?_append,
    Option.bind_eq_bind, Option.bind_some]
  rfl

/-- A pragma is read as the place that it was written for. -/
theorem read_linePragma (span : Span) :
    read (PageClass.linePragma span) = .mapping (some span.named) := by
  have trimmed : trim (PageClass.linePragma span) = PageClass.linePragma span := by
    unfold PageClass.linePragma
    simpa using trim_solid '#' '"'
      ("line (" ++ decimal span.line ++ "," ++ decimal span.column ++ ")-(" ++
        decimal span.line ++ "," ++ decimal span.endColumn ++ ") \"" ++ span.file)
      (by decide) (by decide)
  obtain ⟨rest, shape⟩ : ∃ rest, PageClass.linePragma span = "#line " ++ '(' :: rest := by
    unfold PageClass.linePragma
    simp only [List.append_assoc]
    exact ⟨_, rfl⟩
  have parenthesis : trim ('(' :: rest) = '(' :: trimEnd rest :=
    (trim_cons rest (by decide)).trans (trimEnd_cons rest (by decide))
  have found : afterLead? "#line " (PageClass.linePragma span) = some ('(' :: rest) :=
    afterLead?_eq_some_iff.mpr shape
  have noDefault : '(' :: trimEnd rest ≠ ("default" : Text) := by simp
  have noHidden : '(' :: trimEnd rest ≠ ("hidden" : Text) := by simp
  simp only [read, trimmed, found, parenthesis, noDefault, noHidden, or_self, ↓reduceIte,
    span?_linePragma]

/-- The pragma that ends a place is read as naming none. -/
theorem read_default : read "#line default" = .mapping none := by decide

/-- What follows a pragma of another kind is not looked at. -/
theorem read_checksum (rest : Text) : read ("#pragma checksum \"" ++ rest ++ "\"") = .other := by
  have trimmed : trim ("#pragma checksum \"" ++ rest ++ "\"") =
      "#pragma checksum \"" ++ rest ++ "\"" :=
    trim_solid '#' '"' ("pragma checksum \"" ++ rest) (by decide) (by decide)
  have noPlace : afterLead? "#line " ("#pragma checksum \"" ++ rest ++ "\"") = none := rfl
  have pragma : beginsWith "#pragma" ("#pragma checksum \"" ++ rest ++ "\"") = true := rfl
  simp only [read, trimmed, noPlace, pragma, ↓reduceIte]

/-- Markup declares nothing, whatever it says. -/
theorem read_markup (literal : Text) : read ("WriteLiteral(\"" ++ literal ++ "\");") = .other := by
  have trimmed : trim ("WriteLiteral(\"" ++ literal ++ "\");") =
      "WriteLiteral(\"" ++ literal ++ "\");" := by
    simpa using trim_solid 'W' ';' ("riteLiteral(\"" ++ literal ++ "\")")
      (by decide) (by decide)
  rw [read_declaration trimmed rfl rfl]
  rfl

/-- A constant declares nothing that is read. -/
theorem read_constant (literal : Text) :
    read ("public const string TagHelperPrefix = \"" ++ literal ++ "\";") = .other := by
  have trimmed : trim ("public const string TagHelperPrefix = \"" ++ literal ++ "\";") =
      "public const string TagHelperPrefix = \"" ++ literal ++ "\";" := by
    simpa using trim_solid 'p' ';'
      ("ublic const string TagHelperPrefix = \"" ++ literal ++ "\"") (by decide) (by decide)
  rw [read_declaration trimmed rfl rfl]
  rfl

end ClassLine

namespace PageClass

/-- ASCII letters and digits are solid. -/
theorem isBlank_of_isAlphanum {char : Char} (plain : char.isAlphanum = true) :
    isBlank char = false := by
  have bounds : (0x30 ≤ char.toNat ∧ char.toNat ≤ 0x39) ∨ (0x41 ≤ char.toNat ∧ char.toNat ≤ 0x5A) ∨
      (0x61 ≤ char.toNat ∧ char.toNat ≤ 0x7A) := by
    have known : (char.isUpper || char.isLower || char.isDigit) = true := plain
    simp only [Bool.or_eq_true, Char.isDigit_iff_toNat] at known
    rcases known with (upper | lower) | digit
    · have between : decide (char.val ≥ 0x41 ∧ char.val ≤ 0x5A) = true := upper
      exact .inr (.inl (by simpa [UInt32.le_iff_toNat_le] using between))
    · have between : (decide (char.val ≥ 0x61) && decide (char.val ≤ 0x7A)) = true := lower
      exact .inr (.inr (by simpa [UInt32.le_iff_toNat_le] using between))
    · exact .inl digit
  simp only [isBlank, Bool.or_eq_false_iff, Bool.and_eq_false_iff, decide_eq_false_iff_not,
    beq_eq_false_iff_ne]
  omega

/-- The name of a class is made of letters, digits and underscores. -/
theorem className_solid (path : Text) : ∀ char ∈ className path, isBlank char = false := by
  have fill (char : Char) : isBlank (if char.isAlphanum then char else '_') = false := by
    split
    · exact isBlank_of_isAlphanum ‹_›
    · decide
  have named : ∀ char ∈ (Logical.stem (path.dropWhile (· == '/'))).map
      (fun char => if char.isAlphanum then char else '_'), isBlank char = false := by
    intro char member
    obtain ⟨original, _, rfl⟩ := List.mem_map.mp member
    exact fill original
  intro char member
  simp only [className] at member
  split at member
  · obtain rfl := List.mem_singleton.mp member
    decide
  · rename_i first rest shape
    split at member
    · rcases List.mem_cons.mp member with rfl | later
      · decide
      · exact named char later
    · exact named char member

end PageClass

end ViewCompiler

import ViewCompiler.Manifest

/-!
# The grammar of the names of types

Two grammars of the names of types. The first one is what such a name is: segments between
dots, each with a list of types as its arguments if it has any, and marks of arrays and optional
values at the end. The second one is what the scan of a page class accepts: it counts the open
lists and knows whether a segment has to begin, and asks nothing else, so marks and lists may
stand anywhere behind the first character of a segment, and a segment goes on behind them.

The two differ in nothing but neighbours. A text of the second grammar is one of the first if
every opening mark is followed by its closing mark, and if nothing goes on behind a list or a
mark that may not follow it. Blanks between the brackets of a list are passed over.
-/

namespace ViewCompiler.TypeName

open Text

/-- A character that a segment begins with. -/
def Starts (char : Char) : Prop := isAlphabetic char = true ∨ char = '_'

/-- A character that a segment goes on with. -/
def Continues (char : Char) : Prop := Starts char ∨ char.isDigit = true

/-- A character that marks of arrays and optional values are made of. -/
def IsMark (char : Char) : Prop := char = '[' ∨ char = ']' ∨ char = '?'

/-- What the grammar has rules for. -/
inductive Part
  /-- The text of a segment without arguments. -/
  | name
  | segment
  /-- Segments between dots. -/
  | path
  | type
  /-- Types between commas. -/
  | arguments
deriving DecidableEq, Repr

/-- The grammar of the names of types. -/
inductive Derived : Part → Text → Prop
  | letter {first : Char} (starts : Starts first) : Derived .name [first]
  | longer {name : Text} {next : Char} (front : Derived .name name) (continues : Continues next) :
      Derived .name (name ++ [next])
  | plain {name : Text} (whole : Derived .name name) : Derived .segment name
  | applied {name arguments : Text} (whole : Derived .name name)
      (types : Derived .arguments arguments) :
      Derived .segment (name ++ '<' :: (arguments ++ ['>']))
  | single {segment : Text} (whole : Derived .segment segment) : Derived .path segment
  | dotted {path segment : Text} (front : Derived .path path) (last : Derived .segment segment) :
      Derived .path (path ++ '.' :: segment)
  | unmarked {path : Text} (whole : Derived .path path) : Derived .type path
  | array {type : Text} (element : Derived .type type) : Derived .type (type ++ ['[', ']'])
  | optional {type : Text} (value : Derived .type type) : Derived .type (type ++ ['?'])
  | argument {type : Text} (whole : Derived .type type) : Derived .arguments type
  | further {arguments type : Text} (front : Derived .arguments arguments)
      (last : Derived .type type) : Derived .arguments (arguments ++ ',' :: type)

/-- The grammar of what is accepted. Between the brackets of a list, commas separate as dots do. -/
inductive Lax : (inside : Bool) → Text → Prop
  | letter {inside : Bool} {first : Char} (starts : Starts first) : Lax inside [first]
  | longer {inside : Bool} {text : Text} {next : Char} (front : Lax inside text)
      (continues : Continues next) : Lax inside (text ++ [next])
  | mark {inside : Bool} {text : Text} {next : Char} (front : Lax inside text)
      (marks : IsMark next) : Lax inside (text ++ [next])
  | dotted {inside : Bool} {text : Text} {next : Char} (front : Lax inside text)
      (starts : Starts next) : Lax inside (text ++ ['.', next])
  | listed {text : Text} {next : Char} (front : Lax true text) (starts : Starts next) :
      Lax true (text ++ [',', next])
  | applied {inside : Bool} {text arguments : Text} (front : Lax inside text)
      (types : Lax true arguments) : Lax inside (text ++ '<' :: (arguments ++ ['>']))

/-! ## Neighbours -/

/-- Whether a character may stand before another one, or at the end. -/
structure Joins (char : Char) (next : Option Char) : Prop where
  /-- The marks of an array are a pair. -/
  paired : char = '[' ↔ next = some ']'
  /-- Behind a list, only a dot goes on with a name. -/
  list : char = '>' → ∀ other ∈ next, other ∈ ['.', ',', '>', '[', '?']
  /-- Behind a mark, nothing goes on with a name. -/
  marked : char = ']' ∨ char = '?' → ∀ other ∈ next, other ∈ [',', '>', '[', '?']

/-- The test of the next character passes if there is none, or if it is one of those listed. -/
theorem all_mem {next : Option Char} {chars : List Char} :
    next.all (· ∈ chars) = true ↔ ∀ other ∈ next, other ∈ chars := by
  cases next <;> simp

instance (char : Char) (next : Option Char) : Decidable (Joins char next) :=
  decidable_of_iff
    ((char = '[' ↔ next = some ']') ∧
      (char = '>' → next.all (· ∈ ['.', ',', '>', '[', '?']) = true) ∧
      (char = ']' ∨ char = '?' → next.all (· ∈ [',', '>', '[', '?']) = true))
    ⟨fun ⟨paired, list, marked⟩ =>
        ⟨paired, fun shut => all_mem.mp (list shut), fun mark => all_mem.mp (marked mark)⟩,
      fun joins => ⟨joins.paired, fun shut => all_mem.mpr (joins.list shut),
        fun mark => all_mem.mpr (joins.marked mark)⟩⟩

/-- Whether all neighbours in a text may stand beside each other, given what follows the text. -/
def TidyBefore (next : Option Char) : Text → Prop
  | [] => True
  | char :: rest => Joins char (rest.head?.or next) ∧ TidyBefore next rest

instance (next : Option Char) : (text : Text) → Decidable (TidyBefore next text)
  | [] => .isTrue trivial
  | _ :: rest =>
    have : Decidable (TidyBefore next rest) := instDecidableTidyBefore next rest
    inferInstanceAs (Decidable (_ ∧ _))

/-- Whether all neighbours in a text may stand beside each other. -/
def Tidy (text : Text) : Prop := TidyBefore none text

instance (text : Text) : Decidable (Tidy text) := inferInstanceAs (Decidable (TidyBefore none text))

variable {inside : Bool} {part : Part} {text front rest : Text} {char : Char} {next : Option Char}

/-- A text is tidy if its front is, given what comes next, and its rest is. -/
theorem tidyBefore_append :
    TidyBefore next (front ++ rest) ↔
      TidyBefore (rest.head?.or next) front ∧ TidyBefore next rest := by
  induction front with
  | nil => simp [TidyBefore]
  | cons char front inductionHypothesis =>
    rw [List.cons_append, TidyBefore, TidyBefore, inductionHypothesis, List.head?_append,
      Option.or_assoc, and_assoc]

/-- A text is tidy up to its last character if the text before it is, and the last one may stand
there. -/
theorem tidyBefore_concat :
    TidyBefore next (front ++ [char]) ↔ TidyBefore (some char) front ∧ Joins char next := by
  rw [tidyBefore_append]
  simp [TidyBefore]

/-- The characters that separate, open, close and mark are no part of a segment. -/
theorem outside_segments : ∀ char ∈ ['.', ',', '<', '>', ' ', '[', ']', '?'],
    isAlphabetic char = false ∧ (char == '_') = false ∧ char.isDigit = false := by
  simp only [List.forall_mem_cons, List.not_mem_nil, false_imp_iff, implies_true]
  decide +kernel

/-- No segment goes on with a separator, a bracket or a mark. -/
theorem not_continues (other : char ∈ ['.', ',', '<', '>', ' ', '[', ']', '?']) :
    ¬ Continues char := by
  obtain ⟨letter, underscore, digit⟩ := outside_segments char other
  rw [beq_eq_false_iff_ne] at underscore
  simp [Continues, Starts, letter, underscore, digit]

/-- A character of a segment stands before everything but a closing mark. -/
theorem joins_continues (continues : Continues char) (follows : next ≠ some ']') :
    Joins char next where
  paired := by
    refine ⟨?_, fun closing => absurd closing follows⟩
    rintro rfl
    exact absurd continues (not_continues (by simp))
  list := by
    rintro rfl
    exact absurd continues (not_continues (by simp))
  marked := by
    rintro (rfl | rfl) <;> exact absurd continues (not_continues (by simp))

/-! ## What is derived is tidy -/

/-- What may stand behind a part. -/
def Part.Ends : Part → Option Char → Prop
  | .name, next => next ≠ some ']'
  | .segment, next | .path, next => ∀ char ∈ next, char ∈ ['.', ',', '>', '[', '?']
  | .type, next | .arguments, next => ∀ char ∈ next, char ∈ [',', '>', '[', '?']

/-- Whatever the grammar derives begins as a segment does. -/
theorem Derived.exists_first (derived : Derived part text) :
    ∃ first rest, text = first :: rest ∧ Starts first := by
  induction derived with
  | letter starts => exact ⟨_, [], rfl, starts⟩
  | longer _ _ inductionHypothesis | array _ inductionHypothesis
  | optional _ inductionHypothesis | applied _ _ inductionHypothesis _
  | dotted _ _ inductionHypothesis _ | further _ _ inductionHypothesis _ =>
    obtain ⟨first, rest, rfl, starts⟩ := inductionHypothesis
    exact ⟨first, _, rfl, starts⟩
  | plain _ inductionHypothesis | single _ inductionHypothesis | unmarked _ inductionHypothesis
  | argument _ inductionHypothesis => exact inductionHypothesis

/-- A closing mark stands behind no part. -/
theorem Part.Ends.not_closing (ends : part.Ends next) : next ≠ some ']' := by
  rintro rfl
  cases part <;> simp [Part.Ends] at ends

/-- A character that no other one has to follow, or may not, stands before every part. -/
theorem joins_first (derived : Derived part text) (separates : char ∈ ['.', ',', '<']) :
    Joins char (text.head?.or next) := by
  obtain ⟨first, rest, rfl, starts⟩ := derived.exists_first
  have differs : first ≠ ']' := by
    rintro rfl
    exact not_continues (by simp) (.inl starts)
  simp only [List.mem_cons, List.not_mem_nil, or_false] at separates
  rcases separates with rfl | rfl | rfl <;> exact ⟨by simpa using differs, by simp, by simp⟩

/-- Neighbours in a derived text may stand beside each other. -/
theorem Derived.tidy (derived : Derived part text) (ends : part.Ends next) :
    TidyBefore next text := by
  induction derived generalizing next with
  | letter starts => exact ⟨joins_continues (.inl starts) ends, trivial⟩
  | longer front continues inductionHypothesis =>
    refine tidyBefore_concat.mpr ⟨inductionHypothesis ?_, joins_continues continues ends⟩
    rintro same
    obtain rfl := Option.some.inj same
    exact not_continues (by simp) continues
  | plain whole inductionHypothesis => exact inductionHypothesis ends.not_closing
  | applied whole types name arguments =>
    refine tidyBefore_append.mpr ⟨name (by simp [Part.Ends]), ?_, ?_⟩
    · rw [List.head?_append, Option.or_assoc]
      exact joins_first types (by simp)
    · refine tidyBefore_concat.mpr ⟨arguments (by simp [Part.Ends]), ?_⟩
      exact ⟨by simpa using ends.not_closing, fun _ => ends, by simp⟩
  | single whole inductionHypothesis => exact inductionHypothesis ends
  | dotted front last path segment =>
    exact tidyBefore_append.mpr
      ⟨path (by simp [Part.Ends]), joins_first last (by simp), segment ends⟩
  | unmarked whole inductionHypothesis =>
    refine inductionHypothesis fun other follows => ?_
    exact List.mem_cons_of_mem _ (ends other follows)
  | array element inductionHypothesis =>
    refine tidyBefore_append.mpr ⟨inductionHypothesis (by simp [Part.Ends]), ?_, ?_, trivial⟩
    · exact ⟨by simp, by simp, by simp⟩
    · exact ⟨by simpa using ends.not_closing, by simp, fun _ => ends⟩
  | optional value inductionHypothesis =>
    refine tidyBefore_concat.mpr ⟨inductionHypothesis (by simp [Part.Ends]), ?_⟩
    exact ⟨by simpa using ends.not_closing, by simp, fun _ => ends⟩
  | argument whole inductionHypothesis => exact inductionHypothesis ends
  | further front last arguments type =>
    exact tidyBefore_append.mpr
      ⟨arguments (by simp [Part.Ends]), joins_first last (by simp), type ends⟩

/-! ## What is derived is accepted -/

/-- Behind a separator, another text of the second grammar can stand if its first character can. -/
theorem Lax.behind (lax : Lax inside text)
    (begins : ∀ first, Starts first → Lax inside (front ++ [first])) :
    Lax inside (front ++ text) := by
  induction lax with
  | letter starts => exact begins _ starts
  | longer _ continues inductionHypothesis =>
    rw [← List.append_assoc]
    exact .longer (inductionHypothesis begins) continues
  | mark _ marks inductionHypothesis =>
    rw [← List.append_assoc]
    exact .mark (inductionHypothesis begins) marks
  | dotted _ starts inductionHypothesis =>
    rw [← List.append_assoc]
    exact .dotted (inductionHypothesis begins) starts
  | listed _ starts inductionHypothesis =>
    rw [← List.append_assoc]
    exact .listed (inductionHypothesis begins) starts
  | applied _ types inductionHypothesis _ =>
    rw [← List.append_assoc]
    exact .applied (inductionHypothesis begins) types

/-- A text of the first grammar is one of the second; types between commas only between the
brackets of a list. -/
theorem Derived.lax (derived : Derived part text) (allowed : part = .arguments → inside = true) :
    Lax inside text := by
  induction derived generalizing inside with
  | letter starts => exact .letter starts
  | longer _ continues inductionHypothesis => exact .longer (inductionHypothesis nofun) continues
  | plain _ inductionHypothesis | single _ inductionHypothesis | unmarked _ inductionHypothesis
  | argument _ inductionHypothesis => exact inductionHypothesis nofun
  | applied _ _ name arguments => exact .applied (name nofun) (arguments fun _ => rfl)
  | dotted _ _ path segment =>
    have last : Lax inside _ := segment nofun
    have separated := last.behind fun first starts =>
      List.append_assoc _ ['.'] [first] ▸ Lax.dotted (path nofun) starts
    simpa using separated
  | array _ inductionHypothesis =>
    have element : Lax inside _ := inductionHypothesis nofun
    have opened := Lax.mark element (.inl rfl)
    simpa using Lax.mark opened (.inr (.inl rfl))
  | optional _ inductionHypothesis => exact .mark (inductionHypothesis nofun) (.inr (.inr rfl))
  | further _ _ arguments type =>
    obtain rfl := allowed rfl
    have last : Lax true _ := type nofun
    have separated := last.behind fun first starts =>
      List.append_assoc _ [','] [first] ▸ Lax.listed (arguments fun _ => rfl) starts
    simpa using separated

/-! ## What is accepted and tidy is derived -/

/-- How far the type has come that a text of the second grammar ends in. -/
inductive Reached : Text → Prop
  /-- A segment without arguments, first or behind a dot. -/
  | name {before name : Text}
      (front : before = [] ∨ ∃ path, Derived .path path ∧ before = path ++ ['.']) (last : Derived .name name) : Reached (before ++ name)
  /-- Behind the arguments of a segment. -/
  | list {front : Text} (path : Derived .path (front ++ ['>'])) : Reached (front ++ ['>'])
  | mark {front : Text} {last : Char} (type : Derived .type (front ++ [last]))
      (marks : last = ']' ∨ last = '?') : Reached (front ++ [last])
  /-- Behind an opening mark. -/
  | opened {front : Text} (type : Derived .type front) : Reached (front ++ ['['])

/-- What stands before the type that a text ends in: nothing, or other types of the same list. -/
def Leads (inside : Bool) (lead : Text) : Prop :=
  lead = [] ∨ inside = true ∧ ∃ arguments, Derived .arguments arguments ∧ lead = arguments ++ [',']

/-- A segment without arguments ends as it goes on. -/
theorem Derived.exists_last (derived : Derived .name text) :
    ∃ front last, text = front ++ [last] ∧ Continues last := by
  cases derived with
  | letter starts => exact ⟨[], _, rfl, .inl starts⟩
  | longer front continues => exact ⟨_, _, rfl, continues⟩

/-- A segment without arguments ends a path. -/
theorem path_of_name (before : front = [] ∨ ∃ path, Derived .path path ∧ front = path ++ ['.'])
    (segment : Derived .segment text) : Derived .path (front ++ text) := by
  rcases before with rfl | ⟨path, derived, rfl⟩
  · exact .single segment
  · rw [List.append_assoc]
    exact .dotted derived segment

/-- A path may be left where a dot follows. -/
theorem Reached.path (reached : Reached text) (tidy : TidyBefore (some '.') text) :
    Derived .path text := by
  cases reached with
  | name front last => exact path_of_name front (.plain last)
  | list path => exact path
  | mark _ marks =>
    have joins := (tidyBefore_concat.mp tidy).2
    exact absurd (joins.marked marks '.' rfl) (by decide)
  | opened _ =>
    have joins := (tidyBefore_concat.mp tidy).2
    exact absurd (joins.paired.mp rfl) (by decide)

/-- A type may be left where no closing mark follows. -/
theorem Reached.type (reached : Reached text) (tidy : TidyBefore next text)
    (follows : next ≠ some ']') : Derived .type text := by
  cases reached with
  | name front last => exact .unmarked (path_of_name front (.plain last))
  | list path => exact .unmarked path
  | mark type _ => exact type
  | opened _ => exact absurd ((tidyBefore_concat.mp tidy).2.paired.mp rfl) follows

/-- A closing mark follows an opening one. -/
theorem Reached.closing (reached : Reached text) (tidy : TidyBefore (some ']') text) :
    ∃ front, Derived .type front ∧ text = front ++ ['['] := by
  cases reached with
  | name front last =>
    obtain ⟨name, char, rfl, continues⟩ := last.exists_last
    rw [← List.append_assoc] at tidy
    obtain rfl := (tidyBefore_concat.mp tidy).2.paired.mpr rfl
    exact absurd continues (not_continues (by simp))
  | list _ => exact absurd ((tidyBefore_concat.mp tidy).2.paired.mpr rfl) (by decide)
  | mark _ marks =>
    obtain rfl := (tidyBefore_concat.mp tidy).2.paired.mpr rfl
    simp at marks
  | opened type => exact ⟨_, type, rfl⟩

/-- What goes on with a segment follows its text. -/
theorem Reached.segment (reached : Reached text) (tidy : TidyBefore (some char) text)
    (goes : Continues char ∨ char = '<') :
    ∃ before name, text = before ++ name ∧ Derived .name name ∧
      (before = [] ∨ ∃ path, Derived .path path ∧ before = path ++ ['.']) := by
  have differs {others : List Char} (none : '<' ∉ others)
      (separate : ∀ other ∈ others, other ∈ ['.', ',', '<', '>', ' ', '[', ']', '?']) :
      char ∉ others := by
    rintro member
    rcases goes with continues | rfl
    · exact not_continues (separate char member) continues
    · exact none member
  cases reached with
  | name front last => exact ⟨_, _, rfl, last, front⟩
  | list _ =>
    exact absurd ((tidyBefore_concat.mp tidy).2.list rfl char rfl) (differs (by simp) (by simp))
  | mark _ marks =>
    exact absurd ((tidyBefore_concat.mp tidy).2.marked marks char rfl)
      (differs (by simp) (by simp))
  | opened _ =>
    obtain same := Option.some.inj ((tidyBefore_concat.mp tidy).2.paired.mp rfl)
    exact absurd (List.mem_singleton.mpr same) (differs (by simp) (by simp))

/-- A type ends the arguments that it stands behind. -/
theorem Leads.arguments {lead type : Text} (leads : Leads inside lead)
    (derived : Derived .type type) :
    Derived .arguments (lead ++ type) := by
  rcases leads with rfl | ⟨-, arguments, front, rfl⟩
  · exact .argument derived
  · rw [List.append_assoc]
    exact .further front derived

/-- A tidy text of the second grammar ends in a part of a type, behind other types at most. -/
theorem Lax.reached (lax : Lax inside text) (tidy : TidyBefore next text) :
    ∃ lead current, text = lead ++ current ∧ Leads inside lead ∧ Reached current := by
  induction lax generalizing next with
  | letter starts => exact ⟨[], [_], rfl, .inl rfl, .name (.inl rfl) (.letter starts)⟩
  | @longer _ _ char _ continues inductionHypothesis =>
    have before := (tidyBefore_concat.mp tidy).1
    obtain ⟨lead, current, rfl, leads, reached⟩ := inductionHypothesis before
    obtain ⟨front, name, rfl, segment, path⟩ :=
      reached.segment (tidyBefore_append.mp before).2 (.inl continues)
    refine ⟨lead, front ++ (name ++ [char]), by simp, leads, .name path (.longer segment continues)⟩
  | mark _ marks inductionHypothesis =>
    have before := (tidyBefore_concat.mp tidy).1
    obtain ⟨lead, current, rfl, leads, reached⟩ := inductionHypothesis before
    have tidied := (tidyBefore_append.mp before).2
    rw [List.append_assoc]
    refine ⟨lead, _, rfl, leads, ?_⟩
    rcases marks with rfl | rfl | rfl
    · exact .opened (reached.type tidied (by simp))
    · obtain ⟨front, element, rfl⟩ := reached.closing tidied
      refine .mark ?_ (.inl rfl)
      rw [List.append_assoc]
      exact .array element
    · exact .mark (.optional (reached.type tidied (by simp))) (.inr rfl)
  | @dotted _ _ first _ starts inductionHypothesis =>
    have before := (tidyBefore_append.mp tidy).1
    obtain ⟨lead, current, rfl, leads, reached⟩ := inductionHypothesis before
    have path : Derived .path current := reached.path (tidyBefore_append.mp before).2
    refine ⟨lead, (current ++ ['.']) ++ [first], by simp, leads, ?_⟩
    exact .name (.inr ⟨current, path, rfl⟩) (.letter starts)
  | @listed _ first _ starts inductionHypothesis =>
    have before := (tidyBefore_append.mp tidy).1
    obtain ⟨lead, current, rfl, leads, reached⟩ := inductionHypothesis before
    have type : Derived .type current := reached.type (tidyBefore_append.mp before).2 (by simp)
    refine ⟨(lead ++ current) ++ [','], [first], by simp,
      .inr ⟨rfl, _, leads.arguments type, rfl⟩, ?_⟩
    exact .name (.inl rfl) (.letter starts)
  | applied _ _ inductionHypothesis listed =>
    obtain ⟨before, behind⟩ := tidyBefore_append.mp tidy
    obtain ⟨lead, current, rfl, leads, reached⟩ := inductionHypothesis before
    obtain ⟨front, name, rfl, segment, path⟩ :=
      reached.segment (tidyBefore_append.mp before).2 (.inr rfl)
    have inner := (tidyBefore_concat.mp behind.2).1
    obtain ⟨first, last, rfl, separated, ends⟩ := listed inner
    have arguments : Derived .arguments (first ++ last) :=
      separated.arguments (ends.type (tidyBefore_append.mp inner).2 (by simp))
    refine ⟨lead, (front ++ (name ++ '<' :: (first ++ last))) ++ ['>'], by simp, leads, .list ?_⟩
    simpa using path_of_name path (.applied segment arguments)

/-- The two grammars differ in neighbours only. -/
theorem derived_iff : Derived .type text ↔ Lax false text ∧ Tidy text := by
  constructor
  · intro derived
    exact ⟨derived.lax nofun, derived.tidy (by simp [Part.Ends])⟩
  · rintro ⟨lax, tidy⟩
    obtain ⟨lead, current, rfl, leads, reached⟩ := lax.reached tidy
    obtain rfl : lead = [] := leads.resolve_right (by simp)
    exact reached.type tidy (by simp)

/-- No text of the grammar has blanks. -/
theorem Lax.solid (lax : Lax inside text) : ' ' ∉ text := by
  have solid {first : Char} (continues : Continues first) : ' ' ≠ first := by
    rintro rfl
    exact not_continues (by simp) continues
  induction lax with
  | letter starts => simpa using solid (.inl starts)
  | longer _ continues inductionHypothesis =>
    simpa using ⟨inductionHypothesis, solid continues⟩
  | mark _ marks inductionHypothesis =>
    rcases marks with rfl | rfl | rfl <;> simpa using inductionHypothesis
  | dotted _ starts inductionHypothesis | listed _ starts inductionHypothesis =>
    simpa using ⟨inductionHypothesis, solid (.inl starts)⟩
  | applied _ _ front arguments => simpa using ⟨front, arguments⟩

end ViewCompiler.TypeName

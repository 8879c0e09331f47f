import ViewCompiler.Text

/-!
# Quoted texts of TOML

Four kinds of quotes: double quotes hold escapes, single quotes hold what they hold, and
each of them tripled may hold line breaks. A line break is a line feed, with or without
a carriage return before it, and is read as a line feed. A tripled quote leaves out a
line break that follows at once, and up to two quotes may stand before its end.

Every reader gives the text and what follows it.
-/

namespace ViewCompiler.Toml.Quoted

open Text

/-- Spaces and tabs. -/
def isSpace (char : Char) : Bool := char == ' ' || char == '\t'

/-- Whether a character may stand for itself: no control character but the tab. -/
def isPlain (char : Char) : Bool := char == '\t' || (0x20 ≤ char.toNat && char.toNat != 0x7F)

/-- The value of a hexadecimal digit. -/
def hexDigit? (char : Char) : Option Nat :=
  if char.isDigit then some (char.toNat - '0'.toNat)
  else if 'a' ≤ char ∧ char ≤ 'f' then some (char.toNat - 'a'.toNat + 10)
  else if 'A' ≤ char ∧ char ≤ 'F' then some (char.toNat - 'A'.toNat + 10)
  else none

/-- The number that hexadecimal digits denote. -/
def hexNumber? (digits : Text) : Option Nat :=
  digits.foldl (fun value digit => value.bind fun sofar => (hexDigit? digit).map (sofar * 16 + ·)) (some 0)

/-- The character with the number that `size` hexadecimal digits denote. -/
def numbered? (size : Nat) (text : Text) : Option (Char × Text) :=
  match hexNumber? (text.take size) with
  | none => none
  | some number =>
    if size ≤ text.length ∧ number.isValidChar then some (Char.ofNat number, text.drop size) else none

/-- Reads what follows a backslash. -/
def escape? : Text → Option (Char × Text)
  | 'b' :: rest => some ('\x08', rest)
  | 't' :: rest => some ('\t', rest)
  | 'n' :: rest => some ('\n', rest)
  | 'f' :: rest => some ('\x0c', rest)
  | 'r' :: rest => some ('\r', rest)
  | '"' :: rest => some ('"', rest)
  | '\\' :: rest => some ('\\', rest)
  | 'u' :: rest => numbered? 4 rest
  | 'U' :: rest => numbered? 8 rest
  | _ => none

/-- What follows a number of a character is no longer than the text. -/
theorem numbered?_length {size : Nat} {text rest : Text} {char : Char}
    (found : numbered? size text = some (char, rest)) : rest.length ≤ text.length := by
  unfold numbered? at found
  split at found
  · simp at found
  · split at found
    · simp only [Option.some.injEq, Prod.mk.injEq] at found
      simp [← found.2]
    · simp at found

/-- What follows an escaped character is shorter than the text. -/
theorem escape?_length {text rest : Text} {char : Char} (found : escape? text = some (char, rest)) :
    rest.length < text.length := by
  unfold escape? at found
  split at found <;>
    first
      | (simp only [Option.some.injEq, Prod.mk.injEq] at found; simp [← found.2])
      | exact Nat.lt_succ_of_le (numbered?_length found)
      | simp at found

/-- What follows a line break. -/
def afterBreak? : Text → Option Text
  | '\n' :: rest => some rest
  | '\r' :: '\n' :: rest => some rest
  | _ => none

/-- The text without the blanks and line breaks that it begins with. -/
def skipBreaks : Text → Text
  | '\r' :: '\n' :: rest => skipBreaks rest
  | char :: rest => if isSpace char || char == '\n' then skipBreaks rest else char :: rest
  | [] => []

/-- What follows a backslash that stands last on its line: everything up to the next
character that is not blank is left out. -/
def folded? (text : Text) : Option Text :=
  (afterBreak? (text.dropWhile isSpace)).map skipBreaks

/-- Skipping breaks makes no text longer. -/
theorem skipBreaks_length (text : Text) : (skipBreaks text).length ≤ text.length := by
  fun_induction skipBreaks text with
  | case1 rest inductionHypothesis =>
    simp only [List.length_cons]
    omega
  | case2 char rest _ _ inductionHypothesis =>
    simp only [List.length_cons]
    omega
  | case3 => exact Nat.le_refl _
  | case4 => exact Nat.le_refl _

/-- What follows a break is shorter than the text. -/
theorem afterBreak?_length {text rest : Text} (found : afterBreak? text = some rest) :
    rest.length < text.length := by
  unfold afterBreak? at found
  split at found <;> simp only [Option.some.injEq, reduceCtorEq] at found
  all_goals
    subst found
    simp only [List.length_cons]
    omega

/-- What follows folded lines is shorter than the text. -/
theorem folded?_length {text rest : Text} (found : folded? text = some rest) : rest.length < text.length := by
  simp only [folded?, Option.map_eq_some_iff] at found
  obtain ⟨after, broken, skipped⟩ := found
  have shorter := afterBreak?_length broken
  have kept := skipBreaks_length after
  have dropped := (List.dropWhile_suffix (l := text) isSpace).length_le
  rw [← skipped]
  omega

/-- Puts a character before a text that was read. -/
def before (char : Char) (read : Option (Text × Text)) : Option (Text × Text) :=
  read.map fun (text, rest) => (char :: text, rest)

/-- Reads up to the closing double quote. -/
def basic (text : Text) : Option (Text × Text) :=
  match text with
  | [] => none
  | '"' :: rest => some ([], rest)
  | '\\' :: rest =>
    match found : escape? rest with
    | some (char, after) =>
      have := escape?_length found
      before char (basic after)
    | none => none
  | char :: rest => if isPlain char then before char (basic rest) else none
termination_by text.length

/-- Reads up to the closing single quote. -/
def literal : Text → Option (Text × Text)
  | [] => none
  | '\'' :: rest => some ([], rest)
  | char :: rest => if isPlain char then before char (literal rest) else none

/-- Reads up to the three closing double quotes. -/
def basicLines (text : Text) : Option (Text × Text) :=
  match text with
  | [] => none
  | '"' :: '"' :: '"' :: '"' :: '"' :: rest => some (['"', '"'], rest)
  | '"' :: '"' :: '"' :: '"' :: rest => some (['"'], rest)
  | '"' :: '"' :: '"' :: rest => some ([], rest)
  | '\n' :: rest => before '\n' (basicLines rest)
  | '\r' :: '\n' :: rest => before '\n' (basicLines rest)
  | '\\' :: rest =>
    match joined : folded? rest with
    | some after =>
      have := folded?_length joined
      basicLines after
    | none =>
      match found : escape? rest with
      | some (char, after) =>
        have := escape?_length found
        before char (basicLines after)
      | none => none
  | char :: rest => if isPlain char then before char (basicLines rest) else none
termination_by text.length

/-- Reads up to the three closing single quotes. -/
def literalLines : Text → Option (Text × Text)
  | [] => none
  | '\'' :: '\'' :: '\'' :: '\'' :: '\'' :: rest => some (['\'', '\''], rest)
  | '\'' :: '\'' :: '\'' :: '\'' :: rest => some (['\''], rest)
  | '\'' :: '\'' :: '\'' :: rest => some ([], rest)
  | '\n' :: rest => before '\n' (literalLines rest)
  | '\r' :: '\n' :: rest => before '\n' (literalLines rest)
  | char :: rest => if isPlain char then before char (literalLines rest) else none

/-- A text without the line break it begins with. -/
def afterOneBreak (text : Text) : Text := (afterBreak? text).getD text

/-- Reads a text in single or double quotes. -/
def read? : Text → Option (Text × Text)
  | '"' :: rest => basic rest
  | '\'' :: rest => literal rest
  | _ => none

/-- Reads a text in quotes of any kind. -/
def readAny? : Text → Option (Text × Text)
  | '"' :: '"' :: '"' :: rest => basicLines (afterOneBreak rest)
  | '\'' :: '\'' :: '\'' :: rest => literalLines (afterOneBreak rest)
  | text => read? text

end ViewCompiler.Toml.Quoted

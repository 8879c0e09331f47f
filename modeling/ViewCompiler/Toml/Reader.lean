import ViewCompiler.Toml.Scalar

/-!
# Reading TOML documents

A document is a sequence of lines: blank ones, comments, headers and assignments. An
array or a tripled quote may go on over several lines; an inline table may not. Values
are nested at most 79 deep, and keys have at most 79 parts.
-/

namespace ViewCompiler.Toml

open Text

/-- How deep values may be nested, and how many parts a key may have. -/
def depthLimit : Nat := 79

/-- The text without the spaces and tabs that it begins with. -/
def skipSpaces (text : Text) : Text := text.dropWhile Quoted.isSpace

/-- The text without a comment that it begins with. -/
def skipComment : Text → Text
  | '#' :: rest => rest.dropWhile Quoted.isPlain
  | text => text

/-- What follows the end of a line: spaces, a comment, and a line break or the end of the
document. -/
def afterLine? (text : Text) : Option Text :=
  match skipComment (skipSpaces text) with
  | [] => some []
  | rest => Quoted.afterBreak? rest

/-- The text without blank lines and comments, as they may stand between the elements of
an array; nothing if a comment or a line is broken off. No more lines than `limit` are
looked at. -/
def skipLines? : (limit : Nat) → Text → Option Text
  | 0, _ => none
  | limit + 1, text =>
    match skipSpaces text with
    | '#' :: rest => (Quoted.afterBreak? (skipComment ('#' :: rest))).bind (skipLines? limit)
    | '\n' :: rest => skipLines? limit rest
    | '\r' :: rest => (Quoted.afterBreak? ('\r' :: rest)).bind (skipLines? limit)
    | rest => some rest

/-- Whether a character may stand in a key without quotes. -/
def isBare (char : Char) : Bool := char.isAlphanum || char == '_' || char == '-'

/-- One part of a key. -/
def keyPart? (text : Text) : Option (Text × Text) :=
  match text with
  | '"' :: _ | '\'' :: _ => Quoted.read? text
  | _ =>
    let part := text.takeWhile isBare
    if part.isEmpty then none else some (part, text.dropWhile isBare)

/-- A key of at most `limit` parts with dots between them, and spaces around each part. -/
def key? : (limit : Nat) → Text → Option (List Text × Text)
  | 0, _ => none
  | limit + 1, text => do
    let (part, rest) ← keyPart? (skipSpaces text)
    match skipSpaces rest with
    | '.' :: rest =>
      let (parts, rest) ← key? limit rest
      return (part :: parts, rest)
    | rest => return ([part], rest)

/-- The elements of an array up to its closing bracket, each read by `value?`. Every
element takes at least one character, so `limit` need not exceed the length of the
text. -/
def elements? (value? : Text → Option (Toml × Text)) : (limit : Nat) → Text → Option (List Toml × Text)
  | 0, _ => none
  | limit + 1, text => do
    match ← skipLines? (text.length + 1) text with
    | ']' :: rest => return ([], rest)
    | start =>
      let (element, rest) ← value? start
      match ← skipLines? (rest.length + 1) rest with
      | ',' :: rest =>
        let (elements, rest) ← elements? value? limit rest
        return (element :: elements, rest)
      | ']' :: rest => return ([element], rest)
      | _ => none

/-- An assignment in an inline table. -/
def pair? (value? : Text → Option (Toml × Text)) (text : Text) : Option ((List Text × Toml) × Text) := do
  let (keys, rest) ← key? depthLimit text
  let rest ← afterLead? ['='] rest
  let (value, rest) ← value? (skipSpaces rest)
  return ((keys, value), skipSpaces rest)

/-- The assignments of an inline table up to its closing brace. After a comma there has
to be another one. -/
def pairs? (value? : Text → Option (Toml × Text)) :
    (limit : Nat) → Text → Option (List (List Text × Toml) × Text)
  | 0, _ => none
  | limit + 1, text => do
    let (pair, rest) ← pair? value? text
    match rest with
    | ',' :: rest =>
      let (pairs, rest) ← pairs? value? limit rest
      return (pair :: pairs, rest)
    | '\x7d' :: rest => return ([pair], rest)
    | _ => none

/-- An inline table after its opening brace. -/
def inlineTable? (value? : Text → Option (Toml × Text)) (text : Text) : Option (Toml × Text) := do
  let (assignments, rest) ←
    match skipSpaces text with
    | '\x7d' :: rest => some ([], rest)
    | _ => pairs? value? text.length text
  let entries ← Entries.ofAssignments assignments
  return (.table .closed entries, rest)

/-- A value in which values are nested at most `depth` deep. -/
def value? (depth : Nat) (text : Text) : Option (Toml × Text) :=
  match text, depth with
  | '"' :: _, _ | '\'' :: _, _ => (Quoted.readAny? text).map fun (value, rest) => (.quoted value, rest)
  | '[' :: rest, depth + 1 =>
    (elements? (value? depth) (rest.length + 1) rest).map fun (elements, rest) => (.array elements, rest)
  | '[' :: _, 0 => none
  | '\x7b' :: rest, depth + 1 => inlineTable? (value? depth) rest
  | '\x7b' :: _, 0 => none
  | _, _ => Scalar.read? text

/-- A header or an assignment, up to the end of its line. -/
def statement? (text : Text) : Option (Statement × Text) :=
  match text with
  | '[' :: '[' :: rest => do
    let (path, rest) ← key? depthLimit rest
    let rest ← afterLead? [']', ']'] rest
    return (.element path, ← afterLine? rest)
  | '[' :: rest => do
    let (path, rest) ← key? depthLimit rest
    let rest ← afterLead? [']'] rest
    return (.header path, ← afterLine? rest)
  | _ => do
    let (keys, rest) ← key? depthLimit text
    let rest ← afterLead? ['='] rest
    let (value, rest) ← value? depthLimit (skipSpaces rest)
    return (.assignment keys value, ← afterLine? rest)

/-- The statements of a document. Each takes at least one character, so `limit` need not
exceed the length of the text. -/
def statements? : (limit : Nat) → Text → Option (List Statement)
  | 0, text => if text.isEmpty then some [] else none
  | limit + 1, text =>
    match skipSpaces text with
    | [] => some []
    | '#' :: rest => (afterLine? ('#' :: rest)).bind (statements? limit)
    | '\n' :: rest => statements? limit rest
    | '\r' :: rest => (Quoted.afterBreak? ('\r' :: rest)).bind (statements? limit)
    | start => do
      let (statement, rest) ← statement? start
      let statements ← statements? limit rest
      return statement :: statements

/-- The text without a byte order mark in front. -/
def afterMark : Text → Text
  | '\uFEFF' :: rest => rest
  | text => text

/-- The table that a document says. -/
def parse? (text : Text) : Option Entries :=
  (statements? (text.length + 1) (afterMark text)).bind (Entries.ofStatements [] [])

end ViewCompiler.Toml

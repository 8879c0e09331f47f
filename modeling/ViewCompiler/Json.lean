import ViewCompiler.Text

/-!
# JSON documents

Values of JSON, written over several lines: every element and every member on a line of
its own, two blanks deeper than what it is in. Members keep their order.
-/

namespace ViewCompiler

open Text

/-- A value of JSON; numbers are natural. -/
inductive JsonValue
  | null
  | boolean (value : Bool)
  | number (value : Nat)
  | text (value : Text)
  | array (elements : List JsonValue)
  | object (members : List (Prod Text JsonValue))
deriving Repr

namespace JsonValue

/-- A text, or null. -/
def ofOption (value : Option Text) : JsonValue :=
  match value with
  | some value => .text value
  | none => .null

/-- A character in a quoted text: quotes, backslashes and control characters are
escaped, all others stand for themselves. -/
def quoteChar (char : Char) : Text :=
  if char = '"' then ['\\', '"']
  else if char = '\\' then ['\\', '\\']
  else if char = '\x08' then ['\\', 'b']
  else if char = '\t' then ['\\', 't']
  else if char = '\n' then ['\\', 'n']
  else if char = '\x0c' then ['\\', 'f']
  else if char = '\r' then ['\\', 'r']
  else if char.toNat < 0x20 then
    ['\\', 'u', '0', '0', Nat.digitChar (char.toNat / 16), Nat.digitChar (char.toNat % 16)]
  else [char]

/-- A text in quotes. -/
def quote (value : Text) : Text := '"' :: value.flatMap quoteChar ++ ['"']

/-- The beginning of a line at a depth. -/
def margin (depth : Nat) : Text := '\n' :: List.replicate (2 * depth) ' '

mutual

/-- A value, the line it begins on being at a depth. -/
def render (depth : Nat) : JsonValue → Text
  | .null => "null"
  | .boolean value => if value then "true" else "false"
  | .number value => decimal value
  | .text value => quote value
  | .array [] => ['[', ']']
  | .array (first :: rest) =>
    '[' :: margin (depth + 1) ++ render (depth + 1) first ++ renderElements (depth + 1) rest ++
      margin depth ++ [']']
  | .object [] => ['\x7b', '\x7d']
  | .object ((name, value) :: rest) =>
    '\x7b' :: margin (depth + 1) ++ quote name ++ ": " ++ render (depth + 1) value ++
      renderMembers (depth + 1) rest ++ margin depth ++ ['\x7d']

/-- The elements after the first one. -/
def renderElements (depth : Nat) : List JsonValue → Text
  | [] => []
  | first :: rest => ',' :: margin depth ++ render depth first ++ renderElements depth rest

/-- The members after the first one. -/
def renderMembers (depth : Nat) : List (Prod Text JsonValue) → Text
  | [] => []
  | (name, value) :: rest =>
    ',' :: margin depth ++ quote name ++ ": " ++ render depth value ++ renderMembers depth rest

end

/-- The document. -/
def pretty (value : JsonValue) : Text := value.render 0

end JsonValue

end ViewCompiler

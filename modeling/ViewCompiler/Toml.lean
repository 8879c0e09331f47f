import ViewCompiler.Table
import ViewCompiler.Text

/-!
# TOML documents

The values of a TOML document and the rules by which its tables grow. A table keeps its
keys in the order in which they came. How a table came about decides what may still be
added to it: a header may add to what another header implied, a dotted key may add to
what dotted keys made, and a table written as a value is closed. A key is assigned once.

The library reads documents only for settings, so of a float or a date it is kept that
it is one, and no more.
-/

namespace ViewCompiler

/-- How a table came about. -/
inductive TableOrigin
  /-- It has a header of its own. -/
  | declared
  /-- The header of a table inside it was met first. -/
  | implied
  /-- A dotted key leads through it. -/
  | dotted
  /-- It is written as a value. -/
  | closed
deriving DecidableEq, Repr

/-- A value of a document. -/
inductive Toml
  /-- A text in quotes. -/
  | quoted (value : Text)
  | integer (value : Int)
  | float
  | boolean (value : Bool)
  /-- A date, a time of day, or both. -/
  | moment
  | array (elements : List Toml)
  | table (origin : TableOrigin) (entries : List (Text × Toml))
  /-- The tables under a header in double brackets. -/
  | tables (elements : List (List (Text × Toml)))
deriving Repr

namespace Toml

/-- The keys of a table with their values. -/
abbrev Entries := Table Text Toml

/-- Something that a document says. -/
inductive Statement
  /-- A header: what follows is in this table. -/
  | header (path : List Text)
  /-- A header in double brackets: what follows is in a new table at the end of a list. -/
  | element (path : List Text)
  /-- A key, possibly dotted, with its value. -/
  | assignment (keys : List Text) (value : Toml)
deriving Repr

namespace Entries

/-- Changes the table that the keys of a header lead to. Missing tables on the way are
implied, and of a list of tables the last one is meant. -/
def change (how : Entries → Option Entries) : (path : List Text) → Entries → Option Entries
  | [], entries => how entries
  | key :: path, entries =>
    match entries.find? key with
    | none => (change how path []).map fun inner => entries.put key (.table .implied inner)
    | some (.table .closed _) => none
    | some (.table origin inner) =>
      (change how path inner).map fun inner => entries.put key (.table origin inner)
    | some (.tables elements) =>
      match elements.getLast? with
      | none => none
      | some last =>
        (change how path last).map fun last => entries.put key (.tables (elements.dropLast ++ [last]))
    | some _ => none

/-- Assigns a value to a dotted key. The table that holds the last key must have come
about by dotted keys if any lead to it; on the way to it, tables may be implied or stand
last in a list. -/
def assign (value : Toml) : (keys : List Text) → Entries → Option Entries
  | [], _ => none
  | [key], entries => if (entries.find? key).isSome then none else some (entries.put key value)
  | key :: inner :: keys, entries =>
    match entries.find? key with
    | none => (assign value (inner :: keys) []).map fun found => entries.put key (.table .dotted found)
    | some (.table .dotted found) =>
      (assign value (inner :: keys) found).map fun found => entries.put key (.table .dotted found)
    | some (.table .implied found) =>
      if keys = [] then none
      else (assign value (inner :: keys) found).map fun found => entries.put key (.table .implied found)
    | some (.tables elements) =>
      match elements.getLast? with
      | none => none
      | some last =>
        if keys = [] then none
        else (assign value (inner :: keys) last).map fun last =>
          entries.put key (.tables (elements.dropLast ++ [last]))
    | some _ => none

/-- Declares a table in its parent. One that was implied moves to the end. -/
def declare (key : Text) (entries : Entries) : Option Entries :=
  match entries.find? key with
  | none => some (entries.put key (.table .declared []))
  | some (.table .implied inner) => some ((entries.drop key).put key (.table .declared inner))
  | some _ => none

/-- Adds an empty table to a list of tables in its parent. -/
def append (key : Text) (entries : Entries) : Option Entries :=
  match entries.find? key with
  | none => some (entries.put key (.tables [[]]))
  | some (.tables elements) => some (entries.put key (.tables (elements ++ [[]])))
  | some _ => none

/-- The table after a statement, and the path of the table that the next assignment is
for. -/
def state (current : List Text) (entries : Entries) : Statement → Option (List Text × Entries)
  | .header path =>
    match path.getLast? with
    | none => none
    | some key => (entries.change (declare key) path.dropLast).map (path, ·)
  | .element path =>
    match path.getLast? with
    | none => none
    | some key => (entries.change (append key) path.dropLast).map (path, ·)
  | .assignment keys value => (entries.change (assign value keys) current).map (current, ·)

/-- The table that statements make, if they do not contradict each other. -/
def ofStatements (current : List Text) (entries : Entries) : List Statement → Option Entries
  | [] => some entries
  | first :: rest =>
    match state current entries first with
    | none => none
    | some (current, entries) => ofStatements current entries rest

/-- The table with these assignments. -/
def ofAssignments (assignments : List (List Text × Toml)) : Option Entries :=
  ofStatements [] [] (assignments.map fun (keys, value) => .assignment keys value)

end Entries

end Toml

end ViewCompiler

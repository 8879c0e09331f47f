import ViewCompiler.Event
import ViewCompiler.Path.Logical
import ViewCompiler.Text.Utf8

/-!
# Projects and their items

A project answers three questions about logical paths: which item is there, what an
item's octets are now, and whether a path changed since a token was issued for it.
Resolving an item does not look at its octets, so that a token issued between the two
covers every change that the reading could meet.
-/

namespace ViewCompiler

/-- A template or import file, existing or not. An item of a path that leaves the root
keeps the path as it was spelled and does not exist. -/
structure Item where
  path : Text
  physical : Option Text := none
  present : Bool
deriving DecidableEq, Repr

/-- Every item belongs to the root. -/
def Item.basePath : Text := ['/']

/-- The last segment of the item's path. -/
def Item.fileName (item : Item) : Text := Logical.fileName item.path

/-- Why an item cannot be read as text. -/
inductive ReadFault
  /-- The item did not exist when it was resolved. -/
  | absent (path : Text)
  /-- The item was removed after it was resolved. -/
  | gone
  /-- The file of the item was removed after it was resolved. -/
  | noFile
  /-- The item may not be read. -/
  | denied
  /-- The item does not hold what it should, for a reason that is not known. -/
  | malformed
  /-- A reason that only the place that keeps the item can word. -/
  | other (reason : Text)
  /-- The octets are not UTF-8. -/
  | notText (fault : Utf8Fault)
deriving DecidableEq, Repr

namespace ReadFault

/-- The wording of a fault. -/
def message : ReadFault → Text
  | .absent path => path ++ " does not exist"
  | .gone => "entity not found"
  | .noFile => "No such file or directory (os error 2)"
  | .denied => "permission denied"
  | .malformed => "invalid data"
  | .other reason => reason
  | .notText fault => fault.message

/-- Whether the item is missing rather than ill-formed. -/
def isMissing : ReadFault → Bool
  | .absent _ | .gone | .noFile => true
  | _ => false

end ReadFault

/-- Octets as text, with the fault of a reader. -/
def readText (octets : Octets) : Except ReadFault Text :=
  match Utf8.decode octets with
  | .ok text => .ok text
  | .error fault => .error (.notText fault)

/-- The state of a project and the tokens it issues. Asking a token may leave a trace
in the project, such as a freshly taken fingerprint, and may be worth a note. -/
class Project (P : Type) (Token : outParam Type) where
  /-- The item at a logical path. -/
  item : P → Text → Item
  /-- The octets of an existing item as they are now. -/
  octets : P → Item → Except ReadFault Octets
  /-- A token for a path, whether or not anything exists there. -/
  issue : P → Text → Token × P
  /-- Whether the path of a token changed since the token was issued. -/
  changed : P → Token → Bool
  /-- The project after a token was asked, and what there is to note. -/
  asked : P → Token → P × List Event

/-- The text of an item as it is now. -/
def Project.text {P Token : Type} [Project P Token] (project : P) (item : Item) : Except ReadFault Text :=
  if item.present then
    match Project.octets project item with
    | .ok octets => readText octets
    | .error fault => .error fault
  else .error (.absent item.path)

/-- The items named `name` that apply to a path, from the root downwards; none for a
path that leaves the root. -/
def hierarchicalCandidates (path name : Text) : List Text :=
  match Logical.normalize path with
  | none => []
  | some canonical => Logical.hierarchicalPaths canonical name

end ViewCompiler

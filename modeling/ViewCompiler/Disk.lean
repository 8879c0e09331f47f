import ViewCompiler.Path.Physical
import ViewCompiler.Table

/-!
# A disk

The part of a file system that freshness can depend on: which directories there are,
and for each regular file its octets and the time at which it was modified. A place
is the list of names from the root of the file system. There are no links.

Names are resolved as a file system resolves them: every step but the last has to be
a directory, and so has the last if a slash, `.` or `..` follows it.
-/

namespace ViewCompiler

/-- The names from the root of the file system down to an entry. -/
abbrev Place := List Text

/-- What stands at a place. -/
inductive Node
  | directory
  | file (content : Octets) (modified : Nat)
deriving DecidableEq, Repr

/-- The entries of a file system. The root directory needs no entry. -/
structure Disk where
  entries : Table Place Node := []
deriving Repr

namespace Disk

/-- What stands at a place. -/
def node? (disk : Disk) (place : Place) : Option Node :=
  if place = [] then some .directory else disk.entries.find? place

/-- Whether a directory stands at a place. -/
def holdsDirectory (disk : Disk) (place : Place) : Bool := disk.node? place = some .directory

/-- Follows the texts between slashes from a place, given with its last name first. -/
def walk (disk : Disk) : (inward : List Text) → List Text → Option (List Text)
  | inward, [] => some inward
  | inward, piece :: rest =>
    if disk.holdsDirectory inward.reverse then
      if Physical.isIdle piece then disk.walk inward rest
      else if piece = ['.', '.'] then disk.walk inward.tail rest
      else if (disk.node? (piece :: inward).reverse).isSome then disk.walk (piece :: inward) rest
      else none
    else none

/-- The place that a path names, seen from a working directory. The empty path names
nothing. -/
def resolve? (disk : Disk) (cwd path : Text) : Option Place :=
  if path = [] then none
  else (disk.walk [] (Physical.rawPieces (Physical.join cwd path))).map List.reverse

/-- What a path names. -/
def named? (disk : Disk) (cwd path : Text) : Option Node :=
  (disk.resolve? cwd path).bind disk.node?

/-- Whether a path names a regular file. -/
def isFile (disk : Disk) (cwd path : Text) : Bool :=
  match disk.named? cwd path with
  | some (.file _ _) => true
  | _ => false

/-- Whether a path names a directory. -/
def isDirectory (disk : Disk) (cwd path : Text) : Bool :=
  disk.named? cwd path = some .directory

/-- Whether a path names anything. -/
def exists? (disk : Disk) (cwd path : Text) : Bool := (disk.named? cwd path).isSome

/-- The octets of the regular file that a path names. -/
def content? (disk : Disk) (cwd path : Text) : Option Octets :=
  match disk.named? cwd path with
  | some (.file content _) => some content
  | _ => none

/-- The path of a place. -/
def pathOf (place : Place) : Text := '/' :: Text.joined ['/'] place

/-- The one spelling of an existing path; a path that names nothing is only made
absolute. -/
def canonical (disk : Disk) (cwd path : Text) : Text :=
  match disk.resolve? cwd path with
  | some place => pathOf place
  | none => Physical.join cwd path

/-- Puts an entry at a place, over what was there. -/
def put (disk : Disk) (place : Place) (node : Node) : Disk :=
  if place = [] then disk
  else ⟨disk.entries.put place node⟩

/-- Makes a directory and every one above it, unless something stands there. -/
def makeDirectory (disk : Disk) (place : Place) : Disk :=
  (List.range (place.length + 1)).foldl (fun made depth =>
    let above := place.take depth
    if (made.node? above).isSome then made else made.put above .directory) disk

/-- Writes a regular file, with the directories above it. -/
def write (disk : Disk) (place : Place) (content : Octets) (modified : Nat) : Disk :=
  (disk.makeDirectory place.dropLast).put place (.file content modified)

/-- Sets the time of a regular file. -/
def touch (disk : Disk) (place : Place) (modified : Nat) : Disk :=
  match disk.node? place with
  | some (.file content _) => disk.put place (.file content modified)
  | _ => disk

/-- Removes the entry at a place and everything below it. -/
def remove (disk : Disk) (place : Place) : Disk :=
  ⟨disk.entries.filter fun (other, _) => !place.isPrefixOf other⟩

/-- The places of everything below a place and of the place itself, if anything stands
there. -/
def tree (disk : Disk) (place : Place) : List Place :=
  (if (disk.node? place).isSome then [place] else []) ++
    (disk.entries.map (·.1)).filter fun other => place.isPrefixOf other && other != place

end Disk

end ViewCompiler

import ViewCompiler.Project
import ViewCompiler.Table

/-!
# Templates in memory

Every write and every removal takes the next tick of a clock and leaves it on the
path as its generation. A removed file keeps its record, so that its generation
outlives it. A token remembers the generation it was issued at and reports a change
as soon as the path has another one.

A change is made in two moves, taking a tick and landing on the path, because changes
of several writers may land in another order than they took their ticks.
-/

namespace ViewCompiler

/-- What is known of a path that was ever written. -/
structure MemoryFile where
  /-- The octets, unless the file is removed. -/
  content : Option Octets
  /-- The tick of the last change. -/
  generation : Nat
deriving DecidableEq, Repr

/-- Files by canonical path, and the clock. -/
structure Memory where
  files : Table Text MemoryFile := []
  clock : Nat := 0
deriving Repr

/-- A token of a path in memory. -/
inductive MemoryToken
  /-- The path leaves the root, so it never changes. -/
  | never
  /-- The canonical path and its generation when the token was issued. -/
  | generation (path : Text) (issued : Nat)
deriving DecidableEq, Repr

namespace Memory

/-- The record of a canonical path. -/
def file? (memory : Memory) (path : Text) : Option MemoryFile := memory.files.find? path

/-- The octets at a canonical path. -/
def content? (memory : Memory) (path : Text) : Option Octets := (memory.file? path).bind (·.content)

/-- The generation of a canonical path, zero if it was never written. -/
def generation (memory : Memory) (path : Text) : Nat :=
  match memory.file? path with
  | some file => file.generation
  | none => 0

/-- The next tick. -/
def tick (memory : Memory) : Nat × Memory := (memory.clock + 1, { memory with clock := memory.clock + 1 })

/-- A write lands on a canonical path with the tick it took. -/
def landWrite (memory : Memory) (path : Text) (content : Octets) (generation : Nat) : Memory :=
  { memory with files := memory.files.put path ⟨some content, generation⟩ }

/-- A removal lands with the tick it took. Only a path with a record is touched; the
answer is whether there was a file. -/
def landRemoval (memory : Memory) (path : Text) (generation : Nat) : Bool × Memory :=
  match memory.file? path with
  | none => (false, memory)
  | some file => (file.content.isSome, { memory with files := memory.files.put path ⟨none, generation⟩ })

/-- Writes a file; a path that leaves the root is ignored. -/
def write (memory : Memory) (path : Text) (content : Octets) : Memory :=
  match Logical.normalize path with
  | none => memory
  | some canonical =>
    let (generation, memory) := memory.tick
    memory.landWrite canonical content generation

/-- Removes a file and tells whether there was one. -/
def remove (memory : Memory) (path : Text) : Bool × Memory :=
  match Logical.normalize path with
  | none => (false, memory)
  | some canonical =>
    let (generation, memory) := memory.tick
    memory.landRemoval canonical generation

/-- A project with these files, written in order. -/
def ofFiles (files : List (Text × Octets)) : Memory :=
  files.foldl (fun memory (path, content) => memory.write path content) {}

/-- The item at a path. -/
def item (memory : Memory) (path : Text) : Item :=
  match Logical.normalize path with
  | none => { path, present := false }
  | some canonical => { path := canonical, present := (memory.content? canonical).isSome }

/-- The octets of an item as they are now. -/
def octets (memory : Memory) (item : Item) : Except ReadFault Octets :=
  match memory.content? item.path with
  | some content => .ok content
  | none => .error .gone

/-- A token for a path. -/
def token (memory : Memory) (path : Text) : MemoryToken :=
  match Logical.normalize path with
  | none => .never
  | some canonical => .generation canonical (memory.generation canonical)

/-- Whether a token's path changed. -/
def changed (memory : Memory) : MemoryToken → Bool
  | .never => false
  | .generation path issued => memory.generation path != issued

instance : Project Memory MemoryToken where
  item := item
  octets := octets
  issue memory path := (memory.token path, memory)
  changed := changed
  asked memory _ := (memory, [])

/-- The existing files below a directory whose names end in the extension, in the
order of their paths. -/
def enumerate (memory : Memory) (base extension : Text) : List Item :=
  match Logical.normalize base with
  | none => []
  | some canonical =>
    let lead := if canonical = ['/'] then canonical else canonical ++ ['/']
    let existing := (memory.files.filter fun (_, file) => file.content.isSome).map (·.1)
    let chosen := existing.filter fun path =>
      Text.beginsWith lead path && Text.endsWith ('.' :: extension) path
    (Text.sort chosen).map memory.item

end Memory

end ViewCompiler

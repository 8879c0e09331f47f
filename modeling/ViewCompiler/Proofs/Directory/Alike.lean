import ViewCompiler.Proofs.Directory.Enumerating
import ViewCompiler.Proofs.Memory.Enumerating
import ViewCompiler.Proofs.Path.Extension

/-!
# The same files in memory and on a disk

A project in memory picks what is below a base by how paths begin and end. One on a disk walks down
from the base and compares extensions. If both have the same files, what they list differs in three
ways only. The walk passes over hidden names. It meets the base itself, if the base is a file, which
no path below the base is. And an extension is what follows the last dot of a name, so the walk
finds nothing for a text with a dot or a slash in it, while a path may well end in such a text.

Both lists are in order without repetitions, so that they are told by their members, and they are
equal if there is nothing of the kind.
-/

namespace ViewCompiler

open Text Logical

/-- No file below the root has a backslash in one of its names. -/
def Directory.Plain (directory : Directory) : Prop :=
  ∀ place inner, directory.disk.directory? directory.root = some place →
    (directory.disk.file? (place ++ inner)).isSome → ∀ name ∈ inner, '\\' ∉ name

/-- It is enough to look at the entries. -/
theorem Directory.Plain.of_entries {directory : Directory}
    (plain : ∀ place ∈ directory.disk.entries.map (·.1), ∀ name ∈ place, '\\' ∉ name) :
    directory.Plain := by
  intro place inner _ file name member
  have inside : name ∈ place ++ inner := List.mem_append_right place member
  rcases Disk.mem_entries (Disk.stands_of_file file) with none | among
  · rw [none] at inside
    cases inside
  · exact plain _ among name inside

variable {sight : Text → Option Octets} {base path extension : Text} {inner names : List Text}

/-- A file that is seen at or below a base, by the names that lead down to it from there. -/
def Beneath (sight : Text → Option Octets) (base : Text) (inner : List Text) (path : Text) : Prop :=
  ∃ outer, normalize base = some (ofSegments outer) ∧ (∀ name ∈ outer ++ inner, IsName name) ∧
    path = ofSegments (outer ++ inner) ∧ (sight path).isSome

/-- What is listed of the files below a base in two ways, the second passing over hidden names and
comparing extensions, and when the two come to the same. -/
structure Compared (sight : Text → Option Octets) (base extension : Text)
    (kept found : List Text) : Prop where
  kept_ordered : kept.Pairwise Precedes
  found_ordered : found.Pairwise Precedes
  kept_listed (path : Text) : path ∈ kept ↔ endsWith ('.' :: extension) path ∧
    ∃ inner, inner ≠ [] ∧ Beneath sight base inner path
  found_listed (path : Text) : path ∈ found ↔ Physical.extension? path = some extension ∧
    ∃ inner, (∀ name ∈ inner, Directory.isHidden name = false) ∧ Beneath sight base inner path
  alike : found = kept ↔ ∀ inner path, Beneath sight base inner path →
    if inner = [] then Physical.extension? path ≠ some extension
    else endsWith ('.' :: extension) path →
      (∀ name ∈ inner, Directory.isHidden name = false) ∧ '.' ∉ extension ∧ '/' ∉ extension

/-- The names of a path are told by its canonical spelling. -/
theorem Logical.names_unique {outer other : List Text} (named : ∀ name ∈ outer, IsName name)
    (proper : ∀ name ∈ other, IsName name) (normal : normalize path = some (ofSegments outer))
    (again : normalize path = some (ofSegments other)) : outer = other :=
  ofSegments_injective (fun name member => (named name member).physical)
    (fun name member => (proper name member).physical)
    (Option.some.inj (normal.symm.trans again))

/-- A file is seen below a base in one way only. -/
theorem Beneath.unique {further : List Text} (beneath : Beneath sight base inner path)
    (also : Beneath sight base further path) : inner = further := by
  obtain ⟨outer, normal, named, rfl, -⟩ := beneath
  obtain ⟨other, again, proper, same, -⟩ := also
  obtain rfl := names_unique (List.forall_mem_append.mp named).1 (List.forall_mem_append.mp proper).1
    normal again
  have spelled := normalize_ofSegments named
  exact List.append_cancel_left (names_unique named proper spelled (same ▸ spelled))

/-- A file below a base to which no hidden name leads has an extension if and only if its path ends
in it, and there is neither a dot nor a slash in it. -/
theorem Beneath.extension?_iff (beneath : Beneath sight base inner path) (below : inner ≠ [])
    (shown : ∀ name ∈ inner, Directory.isHidden name = false) :
    Physical.extension? path = some extension ↔
      endsWith ('.' :: extension) path ∧ '.' ∉ extension ∧ '/' ∉ extension := by
  obtain ⟨outer, -, named, rfl, -⟩ := beneath
  obtain ⟨front, last, rfl⟩ := List.eq_nil_or_concat' inner |>.resolve_left below
  have physical : ∀ name ∈ (outer ++ front) ++ [last], Physical.IsName name := by
    rw [List.append_assoc]
    exact fun name member => (named name member).physical
  have visible : last.head? ≠ some '.' := by
    intro dot
    obtain ⟨rest, rfl⟩ := List.head?_eq_some_iff.mp dot
    have hidden := shown _ (List.mem_append_right front List.mem_cons_self)
    rw [Directory.isHidden, ← Bool.not_eq_true, beginsWith_iff] at hidden
    exact hidden ⟨rest, rfl⟩
  rw [endsWith_iff, ← List.append_assoc]
  exact Physical.extension?_iff_suffix physical visible

/-- Lists with these members are equal unless one has a file that the other has not. -/
theorem Compared.of_listed {kept found : List Text} (kept_ordered : kept.Pairwise Precedes)
    (found_ordered : found.Pairwise Precedes)
    (kept_listed : ∀ path, path ∈ kept ↔ endsWith ('.' :: extension) path ∧
      ∃ inner, inner ≠ [] ∧ Beneath sight base inner path)
    (found_listed : ∀ path, path ∈ found ↔ Physical.extension? path = some extension ∧
      ∃ inner, (∀ name ∈ inner, Directory.isHidden name = false) ∧ Beneath sight base inner path) :
    Compared sight base extension kept found := by
  refine ⟨kept_ordered, found_ordered, kept_listed, found_listed, ?_⟩
  constructor
  · rintro rfl inner path beneath
    split
    · rename_i own
      intro extended
      subst own
      have among : path ∈ found := (found_listed path).mpr ⟨extended, [], nofun, beneath⟩
      obtain ⟨-, further, below, also⟩ := (kept_listed path).mp among
      exact below (also.unique beneath)
    · rename_i below
      intro ends
      have among : path ∈ found := (kept_listed path).mpr ⟨ends, inner, below, beneath⟩
      obtain ⟨extended, further, shown, also⟩ := (found_listed path).mp among
      obtain rfl := also.unique beneath
      exact ⟨shown, ((beneath.extension?_iff below shown).mp extended).2⟩
  · intro nothing
    refine found_ordered.eq_of_mem_iff kept_ordered fun path => ?_
    rw [found_listed, kept_listed]
    constructor
    · rintro ⟨extended, inner, shown, beneath⟩
      have apart := nothing inner path beneath
      by_cases own : inner = []
      · rw [if_pos own] at apart
        exact absurd extended apart
      · exact ⟨((beneath.extension?_iff own shown).mp extended).1, inner, own, beneath⟩
    · rintro ⟨ends, inner, below, beneath⟩
      have apart := nothing inner path beneath
      rw [if_neg below] at apart
      obtain ⟨shown, plain⟩ := apart ends
      exact ⟨(beneath.extension?_iff below shown).mpr ⟨ends, plain⟩, inner, shown, beneath⟩

section

variable {memory : Memory} {directory : Directory}

/-- What is listed in memory, by the files that are seen. -/
theorem Memory.Kept.listed (kept : memory.Kept) (base extension path : Text) :
    path ∈ (memory.enumerate base extension).map (·.path) ↔ endsWith ('.' :: extension) path ∧
      ∃ inner, inner ≠ [] ∧ Beneath memory.seen base inner path := by
  have seen {names : List Text} (proper : ∀ name ∈ names, IsName name) :
      memory.seen (ofSegments names) = memory.content? (ofSegments names) := by
    rw [Memory.seen, normalize_ofSegments proper, Option.bind_some]
  cases normal : normalize base with
  | none =>
    have nothing : memory.enumerate base extension = [] := by rw [Memory.enumerate, normal]
    simp [nothing, Beneath, normal]
  | some canonical =>
    obtain ⟨outer, rfl, proper⟩ := normalize_names normal
    have outside : ∀ name ∈ outer, IsName name := fun name member => (proper name member).1
    rw [kept.mem_enumerate outside normal]
    constructor
    · rintro ⟨inner, below, inside, rfl, stands, ends⟩
      have named : ∀ name ∈ outer ++ inner, IsName name :=
        List.forall_mem_append.mpr ⟨outside, inside⟩
      exact ⟨ends, inner, below, outer, normal, named, rfl, seen named ▸ stands⟩
    · rintro ⟨ends, inner, below, other, again, named, rfl, stands⟩
      obtain ⟨aside, inside⟩ := List.forall_mem_append.mp named
      rw [seen named] at stands
      refine ⟨inner, below, inside, ?_, stands, ends⟩
      rw [names_unique outside aside normal again]

/-- What is listed on a disk, by the files that are seen. -/
theorem Directory.Plain.listed (plain : directory.Plain) (rooted : directory.disk.Rooted)
    (named : directory.disk.Named) (absolute : Physical.isAbsolute directory.root = true)
    (base extension path : Text) :
    path ∈ (directory.enumerate base extension).map (·.path) ↔
      Physical.extension? path = some extension ∧
        ∃ inner, (∀ name ∈ inner, isHidden name = false) ∧
          Beneath directory.seen base inner path := by
  have seen {names : List Text} (proper : ∀ name ∈ names, IsName name) :
      directory.seen (ofSegments names) = (directory.disk.directory? directory.root).bind
        fun place => directory.disk.file? (place ++ names) :=
    seen_below rooted absolute (fun name member => (proper name member).physical)
      (normalize_ofSegments proper)
  cases normal : normalize base with
  | none =>
    have nothing : directory.enumerate base extension = [] := by rw [Directory.enumerate, normal]
    simp [nothing, Beneath, normal]
  | some canonical =>
    obtain ⟨outer, rfl, proper⟩ := normalize_names normal
    have outside : ∀ name ∈ outer, IsName name := fun name member => (proper name member).1
    rw [mem_enumerate rooted named absolute (fun name member => (outside name member).physical)
      normal]
    constructor
    · rintro ⟨place, inner, below, stands, shown, rfl, extended⟩
      rw [List.append_assoc] at stands
      have inside : ∀ name ∈ outer ++ inner, IsName name := fun name member =>
        isName_of_physical (named.inside stands name member)
          (plain place (outer ++ inner) below stands name member)
      refine ⟨extended, inner, shown, outer, normal, inside, rfl, ?_⟩
      rwa [seen inside, below, Option.bind_some]
    · rintro ⟨extended, inner, shown, other, again, inside, rfl, stands⟩
      obtain rfl := names_unique outside (List.forall_mem_append.mp inside).1 normal again
      obtain ⟨content, held⟩ := Option.isSome_iff_exists.mp stands
      rw [seen inside] at held
      obtain ⟨place, below, file⟩ := Option.bind_eq_some_iff.mp held
      rw [← List.append_assoc] at file
      exact ⟨place, inner, below, Option.isSome_of_eq_some file, shown, rfl, extended⟩

/-- A project in memory and one on a disk show the same of every path, if they do so of the paths
that have a file in memory and of those of the entries below the root. -/
theorem seen_alike {place : Place} (kept : memory.Kept) (rooted : directory.disk.Rooted)
    (absolute : Physical.isAbsolute directory.root = true)
    (below : directory.disk.directory? directory.root = some place)
    (written : ∀ path ∈ memory.existing, memory.seen path = directory.seen path)
    (entered : ∀ other ∈ directory.disk.entries.map (·.1), place <+: other →
      memory.seen (ofSegments (other.drop place.length)) =
        directory.seen (ofSegments (other.drop place.length)))
    (path : Text) : memory.seen path = directory.seen path := by
  cases normal : normalize path with
  | none => rw [Memory.seen, Directory.seen, normal, Option.bind_none, Option.bind_none]
  | some canonical =>
    obtain ⟨names, rfl, proper⟩ := normalize_names normal
    have memorized : memory.seen path = memory.content? (ofSegments names) := by
      rw [Memory.seen, normal, Option.bind_some]
    have placed : directory.seen path = directory.disk.file? (place ++ names) := by
      rw [Directory.seen_below rooted absolute (fun name member => (proper name member).1.physical)
        normal, below, Option.bind_some]
    have shown : memory.seen (ofSegments names) = memory.seen path :=
      Project.Sighted.seen_canonical memory normal
    have met : directory.seen (ofSegments names) = directory.seen path :=
      Project.Sighted.seen_canonical directory normal
    by_cases held : (memory.content? (ofSegments names)).isSome
    · rw [← shown, ← met]
      exact written _ (kept.mem_existing.mpr held)
    · by_cases stands : (directory.disk.file? (place ++ names)).isSome
      · have among : place ++ names ∈ directory.disk.entries.map (·.1) := by
          refine (Disk.mem_entries (Disk.stands_of_file stands)).resolve_left ?_
          intro root
          rw [root] at stands
          cases stands
        have same := entered _ among (List.prefix_append place names)
        rwa [List.drop_left, shown, met] at same
      · rw [memorized, placed, Option.not_isSome_iff_eq_none.mp held,
          Option.not_isSome_iff_eq_none.mp stands]

/-- If a project in memory and one on a disk have the same files, this is what they list below a
base, and when they list the same. -/
theorem enumerate_alike (kept : memory.Kept) (rooted : directory.disk.Rooted)
    (named : directory.disk.Named) (distinct : directory.disk.Distinct) (plain : directory.Plain)
    (absolute : Physical.isAbsolute directory.root = true)
    (same : ∀ path, memory.seen path = directory.seen path) (base extension : Text) :
    Compared directory.seen base extension ((memory.enumerate base extension).map (·.path))
      ((directory.enumerate base extension).map (·.path)) :=
  .of_listed (kept.enumerate_ordered base extension)
    (Directory.enumerate_ordered rooted named distinct absolute base extension)
    (funext same ▸ kept.listed base extension) (plain.listed rooted named absolute base extension)

/-- One of two templates is below the base. -/
theorem enumerate_alike_below :
    let memory := Memory.editAll {}
      [.write "Views/a.cshtml" [], .write "Views/Home/b.cshtml" [], .write "c.css" []]
    let directory : Directory :=
      { root := "/r", disk := Disk.editAll {}
          [.write ["r", "c.css"] [] 1, .write ["r", "Views", "Home", "b.cshtml"] [] 1,
            .write ["r", "Views", "a.cshtml"] [] 1] }
    memory.Kept ∧ directory.disk.Rooted ∧ directory.disk.Named ∧ directory.disk.Distinct ∧
      directory.Plain ∧ Physical.isAbsolute directory.root = true ∧
      (∀ path, memory.seen path = directory.seen path) ∧
      Compared directory.seen "~/Views/Home" "cshtml" ["/Views/Home/b.cshtml"]
        ["/Views/Home/b.cshtml"] := by
  intro memory directory
  let only : List Text := ["/Views/Home/b.cshtml"]
  have kept : memory.Kept := Memory.kept_empty.editAll _
  have rooted : directory.disk.Rooted := Disk.rooted_empty.editAll _
  have named : directory.disk.Named := Disk.Named.of_entries (by decide +kernel)
  have distinct : directory.disk.Distinct := Disk.distinct_empty.editAll _
  have plain : directory.Plain := .of_entries (by decide +kernel)
  have absolute : Physical.isAbsolute directory.root = true := by decide
  have below : directory.disk.directory? directory.root = some (["r"] : Place) := by decide +kernel
  have same : ∀ path, memory.seen path = directory.seen path :=
    seen_alike kept rooted absolute below (by decide +kernel) (by decide +kernel)
  have listed : (memory.enumerate "~/Views/Home" "cshtml").map (·.path) = only := by decide +kernel
  have met : (directory.enumerate "~/Views/Home" "cshtml").map (·.path) = only := by decide +kernel
  have compared :=
    enumerate_alike kept rooted named distinct plain absolute same "~/Views/Home" "cshtml"
  rw [listed, met] at compared
  exact ⟨kept, rooted, named, distinct, plain, absolute, same, compared⟩

/-- A file in a hidden directory is listed in memory and passed over on the disk. -/
theorem enumerate_hidden :
    let memory := Memory.editAll {} [.write ".git/a.cshtml" []]
    let directory : Directory :=
      { root := "/r", disk := Disk.editAll {} [.write ["r", ".git", "a.cshtml"] [] 1] }
    memory.Kept ∧ directory.disk.Rooted ∧ directory.disk.Named ∧ directory.disk.Distinct ∧
      directory.Plain ∧ (∀ path, memory.seen path = directory.seen path) ∧
      (directory.seen "/.git/a.cshtml").isSome ∧
      (memory.enumerate "/" "cshtml").map (·.path) = (["/.git/a.cshtml"] : List Text) ∧
      directory.enumerate "/" "cshtml" = [] := by
  intro memory directory
  have kept : memory.Kept := Memory.kept_empty.editAll _
  have rooted : directory.disk.Rooted := Disk.rooted_empty.editAll _
  refine ⟨kept, rooted, Disk.Named.of_entries (by decide +kernel), Disk.distinct_empty.editAll _,
    .of_entries (by decide +kernel), ?_, by decide +kernel, by decide +kernel, by decide +kernel⟩
  have below : directory.disk.directory? directory.root = some (["r"] : Place) := by decide +kernel
  exact seen_alike kept rooted (by decide) below (by decide +kernel) (by decide +kernel)

end

end ViewCompiler

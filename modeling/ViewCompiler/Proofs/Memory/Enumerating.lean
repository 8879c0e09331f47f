import ViewCompiler.Proofs.Compilation.Sight
import ViewCompiler.Proofs.Memory.Tally
import ViewCompiler.Proofs.Path.Downward
import ViewCompiler.Proofs.Table.Once
import ViewCompiler.Proofs.Text.Ordering

/-!
# What is found in memory

Files in memory stand under canonical paths, one record for each, whatever was written and removed.
Those below a base are picked by spelling: their paths begin with the base and a slash, and end in
the extension. A canonical path that begins so has the names of the base first and at least one name
more, so that nothing is found under a base that only begins like a name.
-/

namespace ViewCompiler

open Text

namespace Logical

variable {outer names : List Text}

/-- A spelling that begins with that of a directory and a slash goes on with names below it. -/
theorem slash_prefix_iff (nonempty : outer ≠ []) (outside : ∀ name ∈ outer, Physical.IsName name)
    (named : ∀ name ∈ names, Physical.IsName name) :
    ofSegments outer ++ ['/'] <+: ofSegments names ↔
      ∃ inner, inner ≠ [] ∧ names = outer ++ inner := by
  have cut {given : List Text} (solid : given ≠ []) (whole : ∀ name ∈ given, Physical.IsName name) :
      pieces (· == '/') (ofSegments given) = [] :: given :=
    (Physical.rawPieces_slash _).trans (congrArg _ (Physical.rawPieces_joined solid whole))
  constructor
  · rintro ⟨rest, shape⟩
    have apart := congrArg (pieces (· == '/')) shape
    rw [List.append_assoc, List.singleton_append, pieces_mark _ rest rfl, cut nonempty outside]
      at apart
    have further : names ≠ [] := by
      rintro rfl
      have short : [] :: (outer ++ pieces (· == '/') rest) = [[], []] := apart
      have alone : outer ++ pieces (· == '/') rest = [[]] := (List.cons.inj short).2
      obtain ⟨name, outer, rfl⟩ := List.exists_cons_of_ne_nil nonempty
      exact (outside name List.mem_cons_self).1 (List.cons.inj alone).1
    rw [cut further named] at apart
    exact ⟨pieces (· == '/') rest, pieces_ne_nil _ rest, (List.cons.inj apart).2.symm⟩
  · rintro ⟨inner, further, rfl⟩
    obtain ⟨first, inner, rfl⟩ := List.exists_cons_of_ne_nil further
    rw [← flatMap_slash nonempty, ← flatMap_slash (by simp), List.flatMap_append,
      List.prefix_append_right_inj]
    exact ⟨first ++ inner.flatMap ('/' :: ·), rfl⟩

end Logical

namespace Memory

open Logical

variable {memory : Memory} {base path extension : Text} {outer : List Text}

/-- Every record stands under a canonical path, and no path has two. -/
structure Kept (memory : Memory) : Prop where
  once : memory.files.Once
  canonical : ∀ path ∈ memory.files.map (·.1), normalize path = some path

/-- An empty project has no records. -/
theorem kept_empty : Kept {} := ⟨Table.once_nil, nofun⟩

/-- A record that is put under a canonical path. -/
theorem Kept.put (kept : memory.Kept) (file : MemoryFile) (clock : Nat)
    (normal : normalize path = some path) : Kept ⟨memory.files.put path file, clock⟩ := by
  refine ⟨kept.once.put path file, ?_⟩
  intro other member
  rcases Table.mem_keys_put.mp member with rfl | among
  · exact normal
  · exact kept.canonical other among

/-- A change puts its record under the canonical path, or does nothing. -/
theorem Kept.edit (kept : memory.Kept) (change : Edit) : (memory.edit change).Kept := by
  cases normal : normalize change.path with
  | none => rwa [edit_outside normal]
  | some canonical =>
    have again := normalize_canonical normal
    rw [edit_eq_land (Option.isSome_of_eq_some normal), land, normal]
    cases change with
    | write spelled content => exact kept.put _ _ again
    | remove spelled =>
      simp only [landRemoval]
      split
      · exact ⟨kept.once, kept.canonical⟩
      · exact kept.put _ _ again

/-- Records stand under canonical paths after any changes. -/
theorem Kept.editAll (kept : memory.Kept) (changes : List Edit) : (memory.editAll changes).Kept :=
  List.foldlRecOn changes Memory.edit kept fun _ known change _ => known.edit change

/-- The canonical paths that have a file. -/
def existing (memory : Memory) : List Text :=
  (memory.files.filter fun (_, file) => file.content.isSome).map (·.1)

/-- No path is listed twice. -/
theorem Kept.existing_nodup (kept : memory.Kept) : memory.existing.Nodup := kept.once.filter _

/-- A path is listed exactly if it has content. -/
theorem Kept.mem_existing (kept : memory.Kept) :
    path ∈ memory.existing ↔ (memory.content? path).isSome := by
  have held (file : MemoryFile) : memory.file? path = some file ↔ (path, file) ∈ memory.files :=
    kept.once.find?_eq_some_iff
  unfold existing content?
  cases found : memory.file? path with
  | none =>
    simp only [Option.bind_none, Option.isSome_none, Bool.false_eq_true, iff_false, List.mem_map,
      List.mem_filter]
    rintro ⟨⟨_, file⟩, ⟨stands, -⟩, rfl⟩
    rw [(held file).mpr stands] at found
    cases found
  | some file =>
    simp only [Option.bind_some, List.mem_map, List.mem_filter]
    constructor
    · rintro ⟨⟨_, other⟩, ⟨stands, present⟩, rfl⟩
      rw [(held other).mpr stands] at found
      rwa [← Option.some.inj found]
    · intro present
      exact ⟨(path, file), ⟨(held file).mp found, present⟩, rfl⟩

/-- A path that has a file is canonical. -/
theorem Kept.normal (kept : memory.Kept) (member : path ∈ memory.existing) :
    normalize path = some path :=
  kept.canonical path ((List.filter_sublist.map _).subset member)

/-- What is found are the files whose paths are spelled so, in order and each once. -/
theorem Kept.enumerate_eq (kept : memory.Kept) {canonical : Text}
    (normal : normalize base = some canonical) :
    (memory.enumerate base extension).map (·.path) = sort (memory.existing.filter fun path =>
      beginsWith (if canonical = ['/'] then canonical else canonical ++ ['/']) path &&
        endsWith ('.' :: extension) path) := by
  have made : memory.enumerate base extension = (sort (memory.existing.filter fun path =>
      beginsWith (if canonical = ['/'] then canonical else canonical ++ ['/']) path &&
        endsWith ('.' :: extension) path)).map memory.item := by
    unfold enumerate
    rw [normal]
    rfl
  rw [made, List.map_map]
  refine (List.map_congr_left ?_).trans (List.map_id _)
  intro path member
  have own := kept.normal (List.mem_filter.mp (mem_sort.mp member)).1
  simp only [Function.comp_apply, memory.item_some own, id_eq]

/-- Items are enumerated in the order of their paths, each of them once. -/
theorem Kept.enumerate_ordered (kept : memory.Kept) (base extension : Text) :
    ((memory.enumerate base extension).map (·.path)).Pairwise Precedes := by
  cases normal : normalize base with
  | none =>
    unfold enumerate
    rw [normal]
    exact .nil
  | some canonical =>
    rw [kept.enumerate_eq normal]
    have apart := (kept.existing_nodup.filter fun path =>
      beginsWith (if canonical = ['/'] then canonical else canonical ++ ['/']) path &&
        endsWith ('.' :: extension) path)
    exact (sort_ordered _).and ((List.mergeSort_perm _ _).nodup_iff.mpr apart)

/-- A file is found below a base if names lead down to it from there and its path ends in the
extension. -/
theorem Kept.mem_enumerate (kept : memory.Kept) (outside : ∀ name ∈ outer, IsName name)
    (normal : normalize base = some (ofSegments outer)) :
    path ∈ (memory.enumerate base extension).map (·.path) ↔
      ∃ inner, inner ≠ [] ∧ (∀ name ∈ inner, IsName name) ∧ path = ofSegments (outer ++ inner) ∧
        (memory.content? path).isSome ∧ endsWith ('.' :: extension) path := by
  have physical {names : List Text} (proper : ∀ name ∈ names, IsName name) :
      ∀ name ∈ names, Physical.IsName name := fun name member => (proper name member).physical
  -- The slash of the root is there already, and a path that is no more than that has no extension.
  have leads {names : List Text} (proper : ∀ name ∈ names, IsName name)
      (ends : endsWith ('.' :: extension) (ofSegments names) = true) :
      beginsWith (if ofSegments outer = ['/'] then ofSegments outer else ofSegments outer ++ ['/'])
          (ofSegments names) = true ↔ ∃ inner, inner ≠ [] ∧ names = outer ++ inner := by
    rw [beginsWith_iff]
    by_cases top : outer = []
    · subst top
      have solid : names ≠ [] := by
        rintro rfl
        have whole : '.' :: extension <:+ ['/'] := endsWith_iff.mp ends
        rcases List.suffix_cons_iff.mp whole with same | beyond
        · cases same
        · cases List.suffix_nil.mp beyond
      have root : ofSegments [] = ['/'] := rfl
      rw [if_pos root]
      exact iff_of_true ⟨joined ['/'] names, rfl⟩ ⟨names, solid, rfl⟩
    · have below : ofSegments outer ≠ ['/'] := fun same =>
        top (ofSegments_injective (physical outside) (List.forall_mem_nil _) same)
      rw [if_neg below]
      exact slash_prefix_iff top (physical outside) (physical proper)
  rw [kept.enumerate_eq normal, mem_sort, List.mem_filter, kept.mem_existing, Bool.and_eq_true_iff]
  constructor
  · rintro ⟨stands, begins, ends⟩
    obtain ⟨names, rfl, named⟩ := normalize_names (kept.normal (kept.mem_existing.mpr stands))
    have proper : ∀ name ∈ names, IsName name := fun name member => (named name member).1
    obtain ⟨inner, solid, rfl⟩ := (leads proper ends).mp begins
    exact ⟨inner, solid, fun name member => proper name (List.mem_append_right outer member), rfl,
      stands, ends⟩
  · rintro ⟨inner, solid, inside, rfl, stands, ends⟩
    have proper : ∀ name ∈ outer ++ inner, IsName name :=
      fun name member => (List.mem_append.mp member).elim (outside name) (inside name)
    exact ⟨stands, (leads proper ends).mpr ⟨inner, solid, rfl⟩, ends⟩

end Memory

end ViewCompiler

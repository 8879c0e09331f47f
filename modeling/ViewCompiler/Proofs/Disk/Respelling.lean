import ViewCompiler.Proofs.Disk.Spelling

/-!
# What the one spelling of a path names

Following pieces from a place that is itself followed from the root leads to a place that is
followed from the root by its names alone, climbs or not. The one spelling of a path is therefore
another spelling of the same path: it names what the path names, and nothing if the path names
nothing. A path that is spelled from the names of a place is its own one spelling on every disk.

The directory of a path has all steps of the path but the last, however the path is spelled.
-/

namespace ViewCompiler

open Text

namespace Physical

variable {path : Text} {pieces : List Text}

/-- Pieces that count for nothing are passed over. -/
theorem filterMap_dropWhile (pieces : List Text) :
    (pieces.dropWhile isIdle).filterMap step? = pieces.filterMap step? := by
  induction pieces with
  | nil => rfl
  | cons piece pieces inductionHypothesis =>
    cases idle : isIdle piece with
    | true =>
      rw [List.dropWhile_cons_of_pos idle, inductionHypothesis,
        List.filterMap_cons_none (step?_eq_none_iff.mpr idle)]
    | false => rw [List.dropWhile_cons_of_neg (by simp [idle])]

/-- Joined pieces have their own steps. -/
theorem filterMap_joined (free : ∀ piece ∈ pieces, '/' ∉ piece) :
    (rawPieces (joined ['/'] pieces)).filterMap step? = pieces.filterMap step? := by
  by_cases empty : pieces = []
  · subst empty
    rfl
  · rw [rawPieces, pieces_joined rfl empty]
    intro piece member char inside
    have differs : char ≠ '/' := fun same => free piece member (same ▸ inside)
    simpa using differs

/-- The directory of an absolute path has its steps without the last one. -/
theorem components_parent? (absolute : isAbsolute path = true) :
    components ((parent? path).getD []) = (components path).dropLast := by
  obtain ⟨rest, rfl⟩ := isAbsolute_iff.mp absolute
  have steps : (rawPieces rest).filterMap step? =
      ((rawPieces rest).reverse.dropWhile isIdle).reverse.filterMap step? := by
    rw [List.filterMap_reverse, filterMap_dropWhile, ← List.filterMap_reverse, List.reverse_reverse]
  rw [components_slash, steps]
  unfold parent?
  rw [rawPieces_slash]
  simp only [absolute, ↓reduceIte]
  cases back : (rawPieces rest).reverse.dropWhile isIdle with
  | nil => rfl
  | cons last before =>
    have own : isIdle last = false := by
      have first := List.head?_dropWhile_not isIdle (rawPieces rest).reverse
      rw [back] at first
      simpa using first
    obtain ⟨step, counts⟩ : ∃ step, step? last = some step := by
      refine Option.ne_none_iff_exists'.mp fun none => ?_
      rw [step?_eq_none_iff, own] at none
      cases none
    have free : ∀ piece ∈ (before.dropWhile isIdle).reverse, '/' ∉ piece := by
      intro piece member
      have inside : piece ∈ last :: before := List.mem_cons_of_mem last
        ((List.dropWhile_sublist isIdle).mem (List.mem_reverse.mp member))
      rw [← back] at inside
      exact slash_not_mem_rawPieces
        (List.mem_reverse.mp ((List.dropWhile_sublist isIdle).mem inside))
    rw [Option.map_some, Option.getD_some, components_slash, filterMap_joined free,
      List.filterMap_reverse, filterMap_dropWhile, ← List.filterMap_reverse, List.reverse_cons,
      List.filterMap_append, List.filterMap_cons_some counts, List.filterMap_nil,
      ← List.cons_append, List.dropLast_concat]

end Physical

namespace Disk

open Physical

variable {disk : Disk} {inward pieces reached : List Text} {cwd base path : Text} {place : Place}

/-- What is reached from a place on the way down is on a way down too: a name was found to stand
below a directory, and a climb goes back to a place that was passed. -/
theorem walk_again (led : disk.walk inward pieces = some reached)
    (named : ∀ text ∈ inward, IsName text) (free : ∀ piece ∈ pieces, '/' ∉ piece)
    (stands : disk.walk [] inward.reverse = some inward) :
    disk.walk [] reached.reverse = some reached := by
  fun_induction disk.walk inward pieces with
  | case1 inward =>
    obtain rfl := Option.some.inj led
    exact stands
  | case2 inward piece pieces directory idle inductionHypothesis =>
    exact inductionHypothesis led named (List.forall_mem_cons.mp free).2 stands
  | case3 inward pieces directory idle inductionHypothesis =>
    refine inductionHypothesis led (fun text member => named text (List.mem_of_mem_tail member))
      (List.forall_mem_cons.mp free).2 ?_
    cases inward with
    | nil => rfl
    | cons last outer =>
      rw [List.reverse_cons, walk_append] at stands
      obtain ⟨above, passed, onward⟩ := Option.bind_eq_some_iff.mp stands
      obtain ⟨own, -⟩ := List.forall_mem_cons.mp named
      have down := walk_cons onward
      rw [own.idle, if_neg Bool.false_ne_true, if_neg own.2.2.1] at down
      obtain rfl := (List.cons.inj (Option.some.inj down)).2
      exact passed
  | case4 inward piece pieces directory idle down present inductionHypothesis =>
    obtain ⟨own, further⟩ := List.forall_mem_cons.mp free
    obtain ⟨nonempty, notDot⟩ := not_or.mp (mt isIdle_iff.mpr idle)
    refine inductionHypothesis led ?_ further ?_
    · exact List.forall_mem_cons.mpr ⟨⟨nonempty, notDot, down, own⟩, named⟩
    · rw [List.reverse_cons, walk_append, stands, Option.bind_some, walk, if_pos directory,
        if_neg idle, if_neg down, if_pos present, walk]
  | case5 => cases led
  | case6 => cases led

/-- The path of a place begins at the root of the file system. -/
theorem isAbsolute_pathOf (place : Place) : isAbsolute (pathOf place) = true :=
  isAbsolute_iff.mpr ⟨_, rfl⟩

/-- An absolute path is seen alike from everywhere. -/
theorem resolve?_from (absolute : isAbsolute path = true) (base other : Text) :
    disk.resolve? base path = disk.resolve? other path := by
  have here : join base path = path := if_pos absolute
  have there : join other path = path := if_pos absolute
  rw [resolve?, resolve?, here, there]

/-- The names of a place that is followed from the root are followed from any spelling of them. -/
theorem resolve?_of_walk (named : ∀ name ∈ place, IsName name)
    (stands : disk.walk [] place = some place.reverse) (base : Text) :
    disk.resolve? base (pathOf place) = some place := by
  have root : disk.holdsDirectory [].reverse = true := rfl
  have blank : isIdle [] = true := rfl
  have cut : rawPieces (pathOf place) = [] :: rawPieces (joined ['/'] place) := rawPieces_slash _
  rw [resolve?_from (isAbsolute_pathOf place) base ['/'],
    resolve?_absolute (isAbsolute_pathOf place), cut, walk, if_pos root, if_pos blank]
  by_cases empty : place = []
  · subst empty
    rfl
  · rw [rawPieces_joined empty named, stands, Option.map_some, List.reverse_reverse]

/-- The place of a path has proper names, and the path of the place leads there again. -/
theorem resolve?_pathOf (resolves : disk.resolve? cwd path = some place) (base : Text) :
    (∀ name ∈ place, IsName name) ∧ disk.resolve? base (pathOf place) = some place := by
  unfold resolve? at resolves
  split at resolves
  · cases resolves
  · obtain ⟨reached, led, rfl⟩ := Option.map_eq_some_iff.mp resolves
    have free : ∀ piece ∈ rawPieces (join cwd path), '/' ∉ piece :=
      fun piece member => slash_not_mem_rawPieces member
    have named : ∀ name ∈ reached.reverse, IsName name := fun name member =>
      walk_named led (by simp) free name (List.mem_reverse.mp member)
    have again : disk.walk [] reached.reverse = some reached :=
      walk_again led (by simp) free rfl
    exact ⟨named, resolve?_of_walk named (by rwa [List.reverse_reverse]) base⟩

/-- The one spelling of an absolute path leads where the path leads. -/
theorem resolve?_canonical (absolute : isAbsolute path = true) :
    disk.resolve? cwd (disk.canonical cwd path) = disk.resolve? cwd path := by
  unfold canonical
  cases resolves : disk.resolve? cwd path with
  | none =>
    have same : join cwd path = path := if_pos absolute
    simp only [same, resolves]
  | some place => exact (resolve?_pathOf resolves cwd).2

/-- So it has the content of the file that the path names, if it names one. -/
theorem content?_canonical (absolute : isAbsolute path = true) :
    disk.content? cwd (disk.canonical cwd path) = disk.content? cwd path := by
  unfold content? named?
  rw [resolve?_canonical absolute]

/-- The path of a place is its own one spelling, whatever is on the disk. -/
theorem canonical_pathOf (disk : Disk) (cwd : Text) (named : ∀ name ∈ place, IsName name) :
    disk.canonical cwd (pathOf place) = pathOf place := by
  have absolute : join cwd (pathOf place) = pathOf place := if_pos (isAbsolute_pathOf place)
  obtain ⟨spelled, plain⟩ := pathOf_spells named
  have same := (disk.canonical_plain (absolute.symm ▸ plain)).1
  rw [absolute, spelled] at same
  unfold canonical at same ⊢
  cases resolves : disk.resolve? cwd (pathOf place) with
  | none => exact absolute
  | some other =>
    rw [resolves] at same
    rw [← same, (pathOf_spells (resolve?_pathOf resolves cwd).1).1]

end Disk

end ViewCompiler

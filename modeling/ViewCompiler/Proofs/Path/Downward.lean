import ViewCompiler.Disk
import ViewCompiler.Proofs.Path.Canonical

/-!
# Paths that go down

A path below a root goes down from it by names. The names that a physical path spells are its
steps, unless it climbs; the physical path of a place spells the place, and if it has a logical
path below a root, then the root spells the beginning of the place, does not climb, and the
logical path spells the rest. A logical path leads to every path that it is the beginning of,
name by name, which is how a change of a directory concerns what is below it.
-/

namespace ViewCompiler

open Text

namespace Physical

/-- A text that can be the name of an entry. -/
def IsName (text : Text) : Prop := text ≠ [] ∧ text ≠ ['.'] ∧ text ≠ ['.', '.'] ∧ '/' ∉ text

instance (text : Text) : Decidable (IsName text) :=
  inferInstanceAs (Decidable (text ≠ [] ∧ text ≠ ['.'] ∧ text ≠ ['.', '.'] ∧ '/' ∉ text))

/-- The names that a path spells, its climbs among them. -/
def namesIn (path : Text) : List Text := (rawPieces path).filter fun piece => !isIdle piece

variable {path root : Text} {names : List Text} {piece : Text}

/-- A piece is idle if it is empty or a dot. -/
theorem isIdle_iff : isIdle piece = true ↔ piece = [] ∨ piece = ['.'] := by
  simp only [isIdle, Bool.or_eq_true, beq_iff_eq]

/-- No slash stands in a piece. -/
theorem slash_not_mem_rawPieces (member : piece ∈ rawPieces path) : '/' ∉ piece := by
  intro slash
  have free := (mem_pieces member).2 '/' slash
  cases free

/-- A name is not idle. -/
theorem IsName.idle (name : IsName piece) : isIdle piece = false := by
  cases idle : isIdle piece with
  | false => rfl
  | true => exact absurd (isIdle_iff.mp idle) (not_or.mpr ⟨name.1, name.2.1⟩)

/-- A name is followed as itself. -/
theorem step?_name (name : IsName piece) : step? piece = some (.name piece) := by
  unfold step?
  rw [if_neg (not_or.mpr ⟨name.1, name.2.1⟩), if_neg name.2.2.1]

/-- Nothing that a path spells down to its steps is lost if these are names. -/
theorem filterMap_step? {pieces : List Text} {names : List Text}
    (steps : pieces.filterMap step? = names.map .name) :
    pieces.filter (fun piece => !isIdle piece) = names ∧ ['.', '.'] ∉ pieces := by
  induction pieces generalizing names with
  | nil => exact ⟨(List.map_eq_nil_iff.mp steps.symm).symm, List.not_mem_nil⟩
  | cons piece pieces inductionHypothesis =>
    cases idle : isIdle piece with
    | true =>
      have counts : step? piece = none := if_pos (isIdle_iff.mp idle)
      rw [List.filterMap_cons_none counts] at steps
      obtain ⟨spelled, plain⟩ := inductionHypothesis steps
      refine ⟨?_, ?_⟩
      · simpa [idle] using spelled
      · rintro member
        rcases List.mem_cons.mp member with rfl | later
        · cases idle
        · exact plain later
    | false =>
      have solid : ¬ (piece = [] ∨ piece = ['.']) := fun empty =>
        Bool.false_ne_true (idle ▸ isIdle_iff.mpr empty)
      by_cases climbs : piece = ['.', '.']
      · have up : step? piece = some .up := by rw [step?, if_neg solid, if_pos climbs]
        rw [List.filterMap_cons_some up] at steps
        cases names <;> cases steps
      · have down : step? piece = some (.name piece) := by rw [step?, if_neg solid, if_neg climbs]
        rw [List.filterMap_cons_some down] at steps
        cases names with
        | nil => cases steps
        | cons name names =>
          obtain ⟨same, further⟩ := List.cons.inj steps
          obtain rfl := Component.name.inj same
          obtain ⟨spelled, plain⟩ := inductionHypothesis further
          refine ⟨?_, ?_⟩
          · simp [idle, spelled]
          · intro member
            rcases List.mem_cons.mp member with same | later
            · exact climbs same.symm
            · exact plain later

/-- An empty piece stands before a slash that a path begins with. -/
theorem rawPieces_slash (rest : Text) : rawPieces ('/' :: rest) = [] :: rawPieces rest := by
  simp [rawPieces, pieces]

/-- The steps of a path that begins with a slash. -/
theorem components_slash (rest : Text) :
    components ('/' :: rest) = .root :: (rawPieces rest).filterMap step? := by
  simp [components, rawPieces, pieces, isAbsolute, beginsWith, afterLead?]

/-- A path is absolute if it begins with a slash. -/
theorem isAbsolute_iff : isAbsolute path = true ↔ ∃ rest, path = '/' :: rest := by
  unfold isAbsolute beginsWith
  rw [Option.isSome_iff_exists]
  apply exists_congr
  intro rest
  rw [afterLead?_eq_some_iff]
  rfl

/-- The steps of an absolute path are those of its pieces. -/
theorem components_absolute (absolute : isAbsolute path = true) :
    components path = .root :: (rawPieces path).filterMap step? := by
  obtain ⟨rest, rfl⟩ := isAbsolute_iff.mp absolute
  have empty : step? [] = none := if_pos (.inl rfl)
  rw [components_slash, rawPieces_slash, List.filterMap_cons_none empty]

/-- Joined names are spelled as they are. -/
theorem rawPieces_joined (nonempty : names ≠ []) (named : ∀ name ∈ names, IsName name) :
    rawPieces (joined ['/'] names) = names := by
  apply pieces_joined rfl nonempty
  intro name member char inside
  have differs : char ≠ '/' := fun same => (named name member).2.2.2 (same ▸ inside)
  simpa using differs

/-- Pieces that are names are all followed. -/
theorem filterMap_names (named : ∀ name ∈ names, IsName name) :
    names.filterMap step? = names.map .name := by
  induction names with
  | nil => rfl
  | cons name names inductionHypothesis =>
    obtain ⟨own, further⟩ := List.forall_mem_cons.mp named
    rw [List.filterMap_cons_some (step?_name own), inductionHypothesis further, List.map_cons]

/-- Names that are joined by slashes are the components of what they make. -/
theorem components_joined (named : ∀ name ∈ names, IsName name) :
    (rawPieces (joined ['/'] names)).filterMap step? = names.map .name := by
  by_cases nonempty : names = []
  · subst nonempty
    rfl
  · rw [rawPieces_joined nonempty named]
    exact filterMap_names named

/-- A path below a directory has the steps of the directory first. -/
theorem below?_eq_some {directory path rest : List Component}
    (below : below? directory path = some rest) : path = directory ++ rest := by
  fun_induction below? directory path with
  | case1 path => exact Option.some.inj below
  | case2 => cases below
  | case3 expected directory path inductionHypothesis =>
    rw [List.cons_append, inductionHypothesis below]
  | case4 => cases below

/-- Components that are names can be named. -/
theorem namesOf_map (names : List Text) : namesOf (names.map .name) = some names := by
  induction names with
  | nil => rfl
  | cons name names inductionHypothesis =>
    rw [List.map_cons, namesOf, inductionHypothesis, Option.map_some]

/-- What a path means is told by its steps. -/
theorem toLogical_congr {other : Text} (same : components path = components other) (root : Text) :
    toLogical root path = toLogical root other := by
  rw [toLogical, toLogical, same]

/-- Only an absolute path starts at the root of the file system. -/
theorem isAbsolute_of_root (starts : .root ∈ components path) : isAbsolute path = true := by
  have stepped (piece : Text) : step? piece ≠ some .root := by
    unfold step?
    split
    · nofun
    · split <;> simp
  unfold components at starts
  split at starts
  · cases starts
  · rename_i first rest cut
    rcases List.mem_append.mp starts with start | later
    · split at start
      · split at start
        · assumption
        · cases start
      · split at start
        · simp at start
        · exact absurd (Option.mem_toList.mp start) (stepped first)
    · obtain ⟨piece, -, step⟩ := List.mem_filterMap.mp later
      exact absurd step (stepped piece)

/-- Steps that are names do not climb. -/
theorem up_not_mem_of_namesOf {steps : List Component} {names : List Text}
    (named : namesOf steps = some names) : .up ∉ steps := by
  fun_induction namesOf steps generalizing names with
  | case1 => exact List.not_mem_nil
  | case2 text rest inductionHypothesis =>
    obtain ⟨inner, within, -⟩ := Option.map_eq_some_iff.mp named
    simpa using inductionHypothesis within
  | case3 rest inductionHypothesis => simpa using inductionHypothesis named
  | case4 => cases named

end Physical

namespace Logical

/-- The names of a canonical path are names of entries. -/
theorem IsName.physical {segment : Text} (name : IsName segment) : Physical.IsName segment := by
  obtain ⟨nonempty, notDot, notDots, whole⟩ := name
  refine ⟨nonempty, notDot, notDots, ?_⟩
  intro slash
  have separated : isSeparator '/' = false := whole '/' slash
  cases separated

/-- A name of an entry without a backslash is a name of a canonical path. -/
theorem isName_of_physical {segment : Text} (name : Physical.IsName segment)
    (plain : '\\' ∉ segment) : IsName segment := by
  obtain ⟨nonempty, notDot, notDots, whole⟩ := name
  refine ⟨nonempty, notDot, notDots, fun char within => ?_⟩
  have slash : char ≠ '/' := fun same => whole (same ▸ within)
  have backslash : char ≠ '\\' := fun same => plain (same ▸ within)
  simp [isSeparator, slash, backslash]

/-- The text of a path that is spelled from names, without the slash that it begins with. -/
theorem dropWhile_ofSegments {names : List Text} (named : ∀ name ∈ names, Physical.IsName name) :
    (ofSegments names).dropWhile (· == '/') = joined ['/'] names := by
  unfold ofSegments
  rw [List.dropWhile_cons_of_pos rfl]
  cases names with
  | nil => rfl
  | cons name names =>
    obtain ⟨nonempty, -, -, whole⟩ := named name List.mem_cons_self
    cases name with
    | nil => exact absurd rfl nonempty
    | cons first rest =>
      have differs : first ≠ '/' := fun same => whole (same ▸ List.mem_cons_self)
      cases names with
      | nil => simp [joined, differs]
      | cons second names => simp [joined, differs]

/-- A path of names, unless it is the root, is each of them behind a slash. -/
theorem flatMap_slash {names : List Text} (nonempty : names ≠ []) :
    names.flatMap ('/' :: ·) = ofSegments names := by
  unfold ofSegments
  fun_induction joined ['/'] names with
  | case1 => exact absurd rfl nonempty
  | case2 only => simp
  | case3 first more several inductionHypothesis =>
    rw [List.flatMap_cons, inductionHypothesis several]
    simp

/-- Different names spell different paths. -/
theorem ofSegments_injective {one other : List Text} (named : ∀ name ∈ one, Physical.IsName name)
    (also : ∀ name ∈ other, Physical.IsName name) (same : ofSegments one = ofSegments other) :
    one = other := by
  have steps : Physical.components (ofSegments one) = Physical.components (ofSegments other) :=
    congrArg Physical.components same
  unfold ofSegments at steps
  rw [Physical.components_slash, Physical.components_slash, Physical.components_joined named,
    Physical.components_joined also] at steps
  exact (List.map_inj_right fun _ _ => Physical.Component.name.inj).mp (List.cons.inj steps).2

/-- Whether a path leads to another: it is the same, or names a directory on the way. -/
def Leads (directory path : Text) : Prop :=
  ∃ outer inner, (∀ name ∈ outer ++ inner, Physical.IsName name) ∧
    directory = ofSegments outer ∧ path = ofSegments (outer ++ inner)

/-- What leads to a directory on the way leads further. -/
theorem Leads.trans {outer middle path : Text} (first : Leads outer middle)
    (second : Leads middle path) : Leads outer path := by
  obtain ⟨front, between, named, rfl, rfl⟩ := first
  obtain ⟨whole, rest, also, same, rfl⟩ := second
  obtain rfl := ofSegments_injective named
    (fun name member => also name (List.mem_append_left rest member)) same
  refine ⟨front, between ++ rest, ?_, rfl, ?_⟩
  · rwa [← List.append_assoc]
  · rw [List.append_assoc]

end Logical

namespace Physical

variable {root logical : Text} {place : Place}

/-- The logical path of a place below a root: the root spells the beginning of the place and does
not climb, and the logical path spells the rest of the place. -/
theorem toLogical_place (absolute : isAbsolute root = true) (named : ∀ name ∈ place, IsName name)
    (below : toLogical root (Disk.pathOf place) = some logical) :
    ['.', '.'] ∉ rawPieces root ∧
      ∃ inner, place = namesIn root ++ inner ∧ logical = Logical.ofSegments inner := by
  obtain ⟨rest, rfl⟩ := isAbsolute_iff.mp absolute
  unfold toLogical Disk.pathOf at below
  rw [components_slash, components_slash, components_joined named] at below
  obtain ⟨steps, downward, spelled⟩ := Option.bind_eq_some_iff.mp below
  obtain ⟨inner, names, shape⟩ := Option.bind_eq_some_iff.mp spelled
  have whole := (List.cons.inj (below?_eq_some downward)).2
  obtain ⟨outer, further, rfl, first, second⟩ := List.map_eq_append_iff.mp whole
  obtain ⟨kept, plain⟩ := filterMap_step? first.symm
  have same : inner = further := by
    rw [← second, namesOf_map] at names
    exact (Option.some.inj names).symm
  subst same
  refine ⟨?_, inner, ?_, ?_⟩
  · intro member
    rcases List.mem_cons.mp member with empty | later
    · cases empty
    · exact plain later
  · congr 1
    exact kept.symm
  · rw [← Option.some.inj shape]
    cases inner with
    | nil => rfl
    | cons name inner => exact Logical.flatMap_slash (List.cons_ne_nil _ _)

end Physical

end ViewCompiler

import ViewCompiler.Proofs.Disk.Walking

/-!
# The one spelling of a path

A path that names something is spelled from the place that it names, another one is only made
absolute. Either way it ends in the same name, unless it ends in a climb, and a path that does
not climb keeps its steps whatever is on the disk.
-/

namespace ViewCompiler

open Text

namespace Physical

variable {path piece name : Text} {pieces : List Text}

/-- A piece counts for nothing or is a step. -/
theorem step?_eq_none_iff : step? piece = none ↔ isIdle piece = true := by
  rw [isIdle_iff]
  constructor
  · intro counts
    unfold step? at counts
    split at counts
    · assumption
    · split at counts <;> cases counts
  · exact fun idle => if_pos idle

/-- A piece of a path is followed as a name exactly if it neither stays nor climbs. -/
theorem step?_eq_name_iff : step? piece = some (.name name) ↔
    isIdle piece = false ∧ piece ≠ ['.', '.'] ∧ piece = name := by
  rw [← Bool.not_eq_true, isIdle_iff]
  constructor
  · intro step
    unfold step? at step
    split at step
    · cases step
    · rename_i solid
      split at step
      · cases step
      · rename_i down
        exact ⟨solid, down, Component.name.inj (Option.some.inj step)⟩
  · rintro ⟨solid, down, rfl⟩
    rw [step?, if_neg solid, if_neg down]

/-- The steps of a path are those of its pieces, behind what it starts from. -/
theorem components_eq (path : Text) : ∃ start, components path =
    start ++ (rawPieces path).filterMap step? ∧ ∀ text, Component.name text ∉ start := by
  have empty : step? [] = none := if_pos (.inl rfl)
  have dot : step? ['.'] = none := if_pos (.inr rfl)
  unfold components
  split
  · rename_i cut
    exact ⟨[], by simp [cut], by simp⟩
  · rename_i first rest cut
    rw [cut]
    by_cases blank : first = []
    · subst blank
      refine ⟨if isAbsolute path then [.root] else [], ?_, ?_⟩
      · rw [if_pos rfl, List.filterMap_cons_none empty]
      · intro text
        split <;> simp
    · by_cases here : first = ['.']
      · subst here
        exact ⟨[.here], by rw [if_neg blank, if_pos rfl, List.filterMap_cons_none dot], by simp⟩
      · refine ⟨[], ?_, by simp⟩
        rw [if_neg blank, if_neg here]
        cases step : step? first with
        | none => rw [List.filterMap_cons_none step]; rfl
        | some component => rw [List.filterMap_cons_some step]; rfl

/-- The last name of a path is its last step, if this is a name. -/
theorem fileName?_eq_some_iff : fileName? path = some name ↔
    ((rawPieces path).filterMap step?).getLast? = some (.name name) := by
  obtain ⟨start, spelled, nameless⟩ := components_eq path
  have last : (components path).getLast? = some (.name name) ↔
      ((rawPieces path).filterMap step?).getLast? = some (.name name) := by
    rw [spelled, List.getLast?_append]
    cases behind : ((rawPieces path).filterMap step?).getLast? with
    | some step => rfl
    | none =>
      rw [Option.none_or]
      constructor
      · intro ends
        exact absurd (List.mem_of_getLast? ends) (nameless name)
      · intro ends
        cases ends
  rw [← last, fileName?]
  split
  · rename_i text ends
    rw [ends, Option.some_inj, Option.some_inj, Component.name.injEq]
  · rename_i nameless
    exact ⟨nofun, fun ends => absurd ends (nameless name)⟩

/-- A path that is seen from a directory keeps its last name. -/
theorem fileName?_join (base : Text) (named : fileName? path = some name) :
    fileName? (join base path) = some name := by
  rw [fileName?_eq_some_iff] at named ⊢
  unfold join
  split
  · exact named
  · split
    · rename_i slash
      rcases slash with rfl | slash
      · exact named
      · obtain ⟨front, shape⟩ := Option.isSome_iff_exists.mp slash
        obtain rfl := beforeTail?_eq_some_iff.mp shape
        rw [List.append_assoc, List.singleton_append, rawPieces, pieces_mark front path rfl,
          List.filterMap_append, List.getLast?_append]
        exact congrArg (Option.or · _) named
    · rw [rawPieces, pieces_mark base path rfl, List.filterMap_append, List.getLast?_append]
      exact congrArg (Option.or · _) named

/-- The steps of pieces that do not climb are the names among them. -/
theorem filterMap_plain (plain : ['.', '.'] ∉ pieces) :
    pieces.filterMap step? = (pieces.filter fun piece => !isIdle piece).map .name := by
  induction pieces with
  | nil => rfl
  | cons piece pieces inductionHypothesis =>
    obtain ⟨down, further⟩ := not_or.mp (mt List.mem_cons.mpr plain)
    cases idle : isIdle piece with
    | true =>
      rw [List.filterMap_cons_none (step?_eq_none_iff.mpr idle), inductionHypothesis further]
      simp [idle]
    | false =>
      have step : step? piece = some (.name piece) :=
        step?_eq_name_iff.mpr ⟨idle, Ne.symm down, rfl⟩
      rw [List.filterMap_cons_some step, inductionHypothesis further]
      simp [idle]

end Physical

namespace Disk

open Physical

variable {disk : Disk} {inward pieces reached : List Text} {path name : Text}

/-- Pieces that count for nothing lead nowhere else. -/
theorem walk_idle (led : disk.walk inward pieces = some reached)
    (idle : pieces.filterMap step? = []) : reached = inward := by
  induction pieces generalizing inward with
  | nil => exact (Option.some.inj led).symm
  | cons piece pieces inductionHypothesis =>
    obtain ⟨counts, further⟩ := List.forall_mem_cons.mp (List.filterMap_eq_nil_iff.mp idle)
    have stays := inductionHypothesis (walk_cons led) (List.filterMap_eq_nil_iff.mpr further)
    rw [stays, if_pos (step?_eq_none_iff.mp counts)]

/-- Pieces lead to a place of the name that they end in. -/
theorem walk_last (led : disk.walk inward pieces = some reached)
    (ends : (pieces.filterMap step?).getLast? = some (.name name)) : reached.head? = some name := by
  induction pieces generalizing inward with
  | nil => cases ends
  | cons piece pieces inductionHypothesis =>
    by_cases further : pieces.filterMap step? = []
    · have own : step? piece = some (.name name) := by
        cases step : step? piece with
        | none =>
          rw [List.filterMap_cons_none step, further] at ends
          cases ends
        | some other =>
          rw [List.filterMap_cons_some step, further] at ends
          exact ends
      obtain ⟨idle, down, rfl⟩ := step?_eq_name_iff.mp own
      rw [walk_idle (walk_cons led) further, idle, if_neg Bool.false_ne_true, if_neg down]
      rfl
    · refine inductionHypothesis (walk_cons led) ?_
      cases step : step? piece with
      | none => rwa [List.filterMap_cons_none step] at ends
      | some other => rwa [List.filterMap_cons_some step, List.getLast?_cons_of_ne_nil further] at ends

/-- Every place to which a path leads is a list of names. -/
theorem walk_named (led : disk.walk inward pieces = some reached)
    (named : ∀ text ∈ inward, IsName text) (free : ∀ piece ∈ pieces, '/' ∉ piece) :
    ∀ text ∈ reached, IsName text := by
  induction pieces generalizing inward with
  | nil =>
    obtain rfl := Option.some.inj led
    exact named
  | cons piece pieces inductionHypothesis =>
    obtain ⟨own, further⟩ := List.forall_mem_cons.mp free
    refine inductionHypothesis (walk_cons led) ?_ further
    intro text member
    split at member
    · exact named text member
    · rename_i solid
      split at member
      · exact named text (List.mem_of_mem_tail member)
      · rename_i down
        rcases List.mem_cons.mp member with rfl | among
        · obtain ⟨nonempty, notDot⟩ := not_or.mp (mt isIdle_iff.mpr solid)
          exact ⟨nonempty, notDot, down, own⟩
        · exact named text among

/-- The one spelling of a path keeps its last name. -/
theorem fileName?_canonical (disk : Disk) (cwd : Text) (named : fileName? path = some name) :
    fileName? (disk.canonical cwd path) = some name := by
  have joined : fileName? (join cwd path) = some name := fileName?_join cwd named
  unfold canonical
  cases resolves : disk.resolve? cwd path with
  | none => exact joined
  | some place =>
    unfold resolve? at resolves
    split at resolves
    · cases resolves
    · obtain ⟨reached, led, rfl⟩ := Option.map_eq_some_iff.mp resolves
      have last : reached.head? = some name := walk_last led (fileName?_eq_some_iff.mp joined)
      have proper : ∀ text ∈ reached, IsName text :=
        walk_named led (by simp) fun piece member => slash_not_mem_rawPieces member
      obtain ⟨spelled, plain⟩ := pathOf_spells fun text member => proper text (List.mem_reverse.mp member)
      rw [fileName?_eq_some_iff, filterMap_plain plain]
      rw [namesIn] at spelled
      simp [spelled, last]

/-- A path that does not climb keeps its steps in its one spelling, whatever is on the disk. -/
theorem components_canonical (disk : Disk) {cwd : Text} (absolute : isAbsolute cwd = true)
    (plain : ['.', '.'] ∉ rawPieces (join cwd path)) :
    components (disk.canonical cwd path) = components (join cwd path) := by
  obtain ⟨same, down⟩ := disk.canonical_plain plain
  rw [components_absolute (disk.isAbsolute_canonical absolute path),
    components_absolute (isAbsolute_join absolute path), filterMap_plain plain, filterMap_plain down]
  exact congrArg (Component.root :: List.map Component.name ·) same

/-- The path of a place does not climb, whatever led there. -/
theorem up_not_mem_canonical {cwd : Text} {place : Place}
    (resolves : disk.resolve? cwd path = some place) :
    Component.up ∉ components (disk.canonical cwd path) := by
  have spelled : disk.canonical cwd path = pathOf place := by
    rw [canonical, resolves]
  unfold resolve? at resolves
  split at resolves
  · cases resolves
  · obtain ⟨reached, led, rfl⟩ := Option.map_eq_some_iff.mp resolves
    have proper : ∀ text ∈ reached, IsName text :=
      walk_named led (by simp) fun piece member => slash_not_mem_rawPieces member
    obtain ⟨-, plain⟩ := pathOf_spells fun text member => proper text (List.mem_reverse.mp member)
    have absolute : isAbsolute (pathOf reached.reverse) = true := isAbsolute_iff.mpr ⟨_, rfl⟩
    rw [spelled, components_absolute absolute, filterMap_plain plain]
    simp

/-- A path that lies below a root has the same logical path in its one spelling, if this lies below
the root as well. -/
theorem toLogical_canonical {cwd root logical other : Text} (working : isAbsolute cwd = true)
    (absolute : isAbsolute root = true) (own : toLogical root path = some logical)
    (also : toLogical root (disk.canonical cwd path) = some other) : other = logical := by
  obtain ⟨rest, below, within⟩ := Option.bind_eq_some_iff.mp own
  obtain ⟨names, named, -⟩ := Option.bind_eq_some_iff.mp within
  obtain ⟨further, beneath, -⟩ := Option.bind_eq_some_iff.mp also
  have steps : components path = components root ++ rest := below?_eq_some below
  have rooted : isAbsolute path = true := by
    apply isAbsolute_of_root
    rw [steps, components_absolute absolute]
    exact List.mem_cons_self
  have joined : join cwd path = path := if_pos rooted
  suffices same : components (disk.canonical cwd path) = components path by
    rw [toLogical_congr same, own] at also
    exact (Option.some.inj also).symm
  cases resolves : disk.resolve? cwd path with
  | none => rw [canonical, resolves, joined]
  | some place =>
    -- The spelling of a place does not climb, so neither does the root, nor the path below it.
    have still : Component.up ∉ components root := by
      intro climbs
      apply up_not_mem_canonical resolves
      rw [below?_eq_some beneath]
      exact List.mem_append_left _ climbs
    have plain : ['.', '.'] ∉ rawPieces (join cwd path) := by
      rw [joined]
      intro climbs
      have step : Component.up ∈ components path := by
        rw [components_absolute rooted]
        exact List.mem_cons_of_mem _ (List.mem_filterMap.mpr ⟨_, climbs, rfl⟩)
      rw [steps] at step
      exact (List.mem_append.mp step).elim still (up_not_mem_of_namesOf named)
    rw [disk.components_canonical working plain, joined]

end Disk

end ViewCompiler

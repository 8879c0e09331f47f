import ViewCompiler.Project
import ViewCompiler.Proofs.Text.Cutting

/-!
# Canonical paths

The canonical spelling of a path is its own canonical spelling, so it does not matter how
often a path is normalized. Spelling a path from the application root makes no difference
either. No step brings a line feed into a path that has none, nor do the candidates for
its import files hold one.
-/

namespace ViewCompiler.Logical

open Text

/-- A segment that names something: it is followed downwards and stays whole. -/
def IsName (segment : Text) : Prop :=
  segment ≠ [] ∧ segment ≠ ['.'] ∧ segment ≠ ['.', '.'] ∧ ∀ char ∈ segment, isSeparator char = false

/-- What following segments leads to is named by segments that were followed. -/
theorem follow_names {directory rest reached : List Text}
    (named : ∀ segment ∈ directory, IsName segment)
    (whole : ∀ segment ∈ rest, ∀ char ∈ segment, isSeparator char = false)
    (led : follow directory rest = some reached) :
    ∀ segment ∈ reached, IsName segment ∧ (segment ∈ directory ∨ segment ∈ rest) := by
  fun_induction follow directory rest with
  | case1 directory =>
    obtain rfl := Option.some.inj led
    intro segment member
    exact ⟨named segment member, .inl member⟩
  | case2 directory segment rest _ inductionHypothesis =>
    intro other member
    obtain ⟨name, origin⟩ :=
      inductionHypothesis named (fun later among => whole later (by simp [among])) led other member
    exact ⟨name, origin.imp_right fun later => by simp [later]⟩
  | case3 => simp at led
  | case4 segment rest outermost outer inductionHypothesis =>
    intro other member
    obtain ⟨name, origin⟩ := inductionHypothesis (fun inner among => named inner (by simp [among]))
      (fun later among => whole later (by simp [among])) led other member
    exact ⟨name, origin.imp (fun inner => by simp [inner]) fun later => by simp [later]⟩
  | case5 directory segment rest passing climbing inductionHypothesis =>
    have name : IsName segment :=
      ⟨fun empty => passing (.inl empty), fun dot => passing (.inr dot), climbing,
        whole segment (by simp)⟩
    intro other member
    have extended : ∀ inner ∈ segment :: directory, IsName inner := by
      intro inner among
      rcases List.mem_cons.mp among with rfl | further
      · exact name
      · exact named inner further
    obtain ⟨itself, origin⟩ := inductionHypothesis extended
      (fun later among => whole later (by simp [among])) led other member
    refine ⟨itself, ?_⟩
    rcases origin with among | later
    · exact (List.mem_cons.mp among).elim (fun same => .inr (by simp [same])) .inl
    · exact .inr (by simp [later])

/-- Names are followed downwards. -/
theorem follow_of_names {directory names : List Text} (named : ∀ segment ∈ names, IsName segment) :
    follow directory names = some (names.reverse ++ directory) := by
  induction names generalizing directory with
  | nil => rfl
  | cons first names inductionHypothesis =>
    obtain ⟨nonempty, notDot, notDots, _⟩ := named first (by simp)
    have further := @inductionHypothesis (first :: directory) fun segment member =>
      named segment (by simp [member])
    simp only [follow, nonempty, notDot, notDots, or_self, ↓reduceIte, further]
    simp

/-- A path that is spelled from its names is canonical. -/
theorem normalize_ofSegments {names : List Text} (named : ∀ segment ∈ names, IsName segment) :
    normalize (ofSegments names) = some (ofSegments names) := by
  have whole : ∀ segment ∈ names, ∀ char ∈ segment, isSeparator char = false :=
    fun segment member => (named segment member).2.2.2
  have led : follow [] (segments (ofSegments names)) = some names.reverse := by
    have rooted : segments (ofSegments names) = [] :: pieces isSeparator (joined ['/'] names) := by
      simp [segments, ofSegments, stripAppRoot, pieces, isSeparator]
    rw [rooted, follow, if_pos (.inl rfl)]
    cases names with
    | nil => rfl
    | cons first more =>
      rw [pieces_joined rfl (by simp) whole, follow_of_names named, List.append_nil]
  rw [normalize, led, Option.map_some, List.reverse_reverse]

/-- The canonical spelling of a path is spelled from names, each a segment of the path. -/
theorem normalize_names {path canonical : Text} (normal : normalize path = some canonical) :
    ∃ names, canonical = ofSegments names ∧
      ∀ segment ∈ names, IsName segment ∧ segment ∈ segments path := by
  obtain ⟨directory, led, rfl⟩ := Option.map_eq_some_iff.mp normal
  have whole : ∀ segment ∈ segments path, ∀ char ∈ segment, isSeparator char = false :=
    fun segment member => (mem_pieces member).2
  refine ⟨directory.reverse, rfl, ?_⟩
  intro segment member
  obtain ⟨name, origin⟩ := follow_names (by simp) whole led segment (List.mem_reverse.mp member)
  exact ⟨name, origin.resolve_left (by simp)⟩

/-- A canonical spelling is its own canonical spelling. -/
theorem normalize_canonical {path canonical : Text} (normal : normalize path = some canonical) :
    normalize canonical = some canonical := by
  obtain ⟨names, rfl, named⟩ := normalize_names normal
  exact normalize_ofSegments fun segment member => (named segment member).1

/-- A key is its own key. -/
theorem stripAppRoot_stripAppRoot (path : Text) :
    stripAppRoot (stripAppRoot path) = stripAppRoot path := by
  fun_cases stripAppRoot path with
  | case1 rest => rfl
  | case2 plain => simp [stripAppRoot]

/-- Keys name the same place as the spellings that they were made from. -/
theorem normalize_stripAppRoot (path : Text) : normalize (stripAppRoot path) = normalize path := by
  simp only [normalize, segments, stripAppRoot_stripAppRoot]

/-! ## Line feeds -/

/-- Taking off the mark of the root adds no character. -/
theorem stripAppRoot_sublist (path : Text) : (stripAppRoot path).Sublist path := by
  fun_cases stripAppRoot path with
  | case1 rest => exact List.sublist_cons_self _ _
  | case2 plain => exact List.Sublist.refl _

/-- What stands in a canonical spelling beside its slashes stands in the path. -/
theorem mem_normalize {path canonical : Text} {char : Char}
    (normal : normalize path = some canonical) (member : char ∈ canonical) :
    char = '/' ∨ char ∈ path := by
  obtain ⟨names, rfl, named⟩ := normalize_names normal
  have inNames : char = '/' ∨ ∃ segment ∈ names, char ∈ segment := by
    rcases List.mem_cons.mp member with slash | inside
    · exact .inl slash
    · exact (mem_joined inside).imp_left List.mem_singleton.mp
  apply inNames.imp_right
  rintro ⟨segment, among, inside⟩
  have inKey : char ∈ stripAppRoot path := (mem_pieces (named segment among).2).1.subset inside
  exact (stripAppRoot_sublist path).subset inKey

/-- Trimming slashes adds no character. -/
theorem trimSlashes_sublist (path : Text) : (trimSlashes path).Sublist path := by
  induction path with
  | nil => exact List.Sublist.slnil
  | cons first rest inductionHypothesis =>
    simp only [trimSlashes]
    split
    · split
      · exact List.nil_sublist _
      · exact (List.nil_sublist rest).cons_cons first
    · exact inductionHypothesis.cons_cons first

/-- A directory is part of the path. -/
theorem mem_parent? {path directory : Text} {char : Char} (found : parent? path = some directory)
    (member : char ∈ directory) : char = '/' ∨ char ∈ path := by
  unfold parent? at found
  split at found
  · simp at found
  · obtain rfl := Option.some.inj found
    exact .inl (List.mem_singleton.mp member)
  · rename_i before name _ cut
    obtain rfl := Option.some.inj found
    obtain ⟨⟨mark, sides⟩, _⟩ := cutLast?_sides cut
    refine .inr ((trimSlashes_sublist path).subset ?_)
    rw [sides]
    exact List.mem_append_left _ member

/-- The ancestors of a directory are written with its characters and with slashes. -/
theorem mem_ancestors {directory outer : Text} {char : Char} (among : outer ∈ ancestors directory)
    (member : char ∈ outer) : char = '/' ∨ char ∈ directory := by
  fun_induction ancestors directory with
  | case1 directory _ => exact .inr (List.mem_singleton.mp among ▸ member)
  | case2 directory next nearer inductionHypothesis =>
    rcases List.mem_cons.mp among with rfl | further
    · exact .inr member
    · rcases inductionHypothesis further with slash | inside
      · exact .inl slash
      · exact mem_parent? nearer inside

/-- What stands in a candidate stands in the path or in the name that is looked for. -/
theorem mem_hierarchicalPaths {path name candidate : Text} {char : Char}
    (among : candidate ∈ hierarchicalPaths path name) (member : char ∈ candidate) :
    char = '/' ∨ char ∈ path ∨ char ∈ name := by
  unfold hierarchicalPaths at among
  split at among
  · simp at among
  · rename_i directory found
    obtain ⟨outer, above, rfl⟩ := List.mem_map.mp (List.mem_filter.mp (List.mem_reverse.mp among)).1
    have parts : char ∈ outer ∨ char = '/' ∨ char ∈ name := by
      unfold join at member
      split at member
      · exact (List.mem_append.mp member).imp_right .inr
      · exact (List.mem_append.mp member).imp_right List.mem_cons.mp
    rcases parts with inside | slash | inName
    · rcases mem_ancestors above inside with slash | inDirectory
      · exact .inl slash
      · exact (mem_parent? found inDirectory).imp_right .inl
    · exact .inl slash
    · exact .inr (.inr inName)

end ViewCompiler.Logical

namespace ViewCompiler

/-- The candidates for import files hold no line feed unless the path or the name does. -/
theorem newline_not_mem_candidate {path name candidate : Text} (inPath : '\n' ∉ path)
    (inName : '\n' ∉ name) (among : candidate ∈ hierarchicalCandidates path name) :
    '\n' ∉ candidate := by
  intro member
  unfold hierarchicalCandidates at among
  split at among
  · simp at among
  · rename_i canonical normal
    rcases Logical.mem_hierarchicalPaths among member with slash | inCanonical | inside
    · exact absurd slash (by decide)
    · exact (Logical.mem_normalize normal inCanonical).elim (by decide) inPath
    · exact inName inside

end ViewCompiler

import Mathlib.Data.List.Forall2
import ViewCompiler.Proofs.Compilation.Sight
import ViewCompiler.Proofs.Path.Cancelling
import ViewCompiler.Proofs.Path.Downward

/-!
# Either separator

A path is cut into segments at slashes and backslashes alike, so that it makes no difference which
of them stands where. The one exception is the separator behind a leading `~`: only `~/` names the
application root, and this is looked at before the path is cut. With a backslash in its place, the
path is read from a directory named `~` at the root, one directory further down.

What is looked up by the canonical spelling is the same for all spellings that have it in common. A
path that leaves the root has none: its item is known by the spelling that it was asked for, and
nothing else is found for it.
-/

namespace ViewCompiler.Logical

open Text

variable {path other rest canonical : Text} {directory reached segments further : List Text}

/-- The same text, but for which separator stands where there is one. -/
def Respelled (path other : Text) : Prop :=
  List.Forall₂ (fun left right => left = right ∨ isSeparator left ∧ isSeparator right) path other

instance (path other : Text) : Decidable (Respelled path other) :=
  inferInstanceAs (Decidable (List.Forall₂ _ path other))

/-- Separators can be put back. -/
theorem Respelled.symm (respelled : Respelled path other) : Respelled other path :=
  respelled.flip.imp fun _ _ alike => alike.imp Eq.symm And.symm

/-- Both are cut into the same segments. -/
theorem Respelled.pieces_eq (respelled : Respelled path other) :
    pieces isSeparator other = pieces isSeparator path := by
  unfold Respelled at respelled
  induction respelled with
  | nil => rfl
  | cons alike _ inductionHypothesis =>
    rcases alike with rfl | ⟨left, right⟩
    · simp only [pieces, inductionHypothesis]
    · simp only [pieces, left, right, ↓reduceIte, inductionHypothesis]

/-- A path from the application root, behind its first slash. -/
theorem beginsWith_home_iff : beginsWith "~/" path = true ↔ ∃ rest, path = '~' :: '/' :: rest := by
  rw [beginsWith_iff]
  constructor
  · rintro ⟨rest, rfl⟩
    exact ⟨rest, rfl⟩
  · rintro ⟨rest, rfl⟩
    exact ⟨rest, rfl⟩

/-- No other path is changed before it is cut. -/
theorem stripAppRoot_of_not_home (astray : beginsWith "~/" path = false) :
    stripAppRoot path = path := by
  fun_cases stripAppRoot path with
  | case1 rest => cases astray
  | case2 => rfl

/-- Both are cut into the same segments from the application root on, if both begin with it or
neither does. -/
theorem Respelled.normalize_eq (respelled : Respelled path other)
    (alike : beginsWith "~/" other = beginsWith "~/" path) : normalize other = normalize path := by
  have same : Logical.segments other = Logical.segments path := by
    cases home : beginsWith "~/" path with
    | false =>
      rw [Logical.segments, Logical.segments, stripAppRoot_of_not_home home,
        stripAppRoot_of_not_home (alike.trans home), respelled.pieces_eq]
    | true =>
      obtain ⟨rest, rfl⟩ := beginsWith_home_iff.mp home
      obtain ⟨left, rfl⟩ := beginsWith_home_iff.mp (alike.trans home)
      have behind : Respelled ('/' :: rest) ('/' :: left) := (List.forall₂_cons.mp respelled).2
      exact behind.pieces_eq
  rw [normalize, same, normalize]

/-- What is followed from a directory is followed alike from a directory below others. -/
theorem follow_below (led : follow directory segments = some reached) (outer : List Text) :
    follow (directory ++ outer) segments = some (reached ++ outer) := by
  fun_induction follow directory segments with
  | case1 directory =>
    obtain rfl := Option.some.inj led
    rfl
  | case2 directory segment rest stays inductionHypothesis =>
    rw [follow_stays stays, inductionHypothesis led]
  | case3 => cases led
  | case4 rest name inner _ inductionHypothesis => exact inductionHypothesis led
  | case5 directory segment rest solid climbs inductionHypothesis =>
    rw [follow_descends (descends_of_not solid climbs)]
    exact inductionHypothesis led

/-- With a backslash behind its `~`, a path from the application root is read from a directory of
this name. -/
theorem Respelled.normalize_astray (respelled : Respelled path other)
    (home : beginsWith "~/" path = true) (astray : beginsWith "~/" other = false)
    (normal : normalize path = some canonical) :
    ∃ names, canonical = ofSegments names ∧ (∀ name ∈ names, IsName name) ∧
      normalize other = some (ofSegments (['~'] :: names)) := by
  obtain ⟨rest, rfl⟩ := beginsWith_home_iff.mp home
  obtain ⟨first, others, tilde, after, rfl⟩ := List.forall₂_cons_left_iff.mp respelled
  obtain ⟨mark, left, separated, further, rfl⟩ := List.forall₂_cons_left_iff.mp after
  obtain rfl : '~' = first := tilde.resolve_right fun both => absurd both.1 (by decide)
  have parts : isSeparator mark = true := separated.elim (fun same => same ▸ rfl) (·.2)
  have behind : Respelled rest left := further
  -- Both go on with the segments of the rest, one from the root and one from a directory below it.
  have homed : Logical.segments ('~' :: '/' :: rest) = [] :: pieces isSeparator rest := by
    simp [Logical.segments, stripAppRoot, pieces, isSeparator]
  have strayed : Logical.segments ('~' :: mark :: left) = ['~'] :: pieces isSeparator rest := by
    have solid : ∀ char ∈ ['~'], isSeparator char = false := List.forall_mem_singleton.mpr rfl
    have cut : pieces isSeparator ('~' :: mark :: left) = ['~'] :: pieces isSeparator left :=
      pieces_append ['~'] left mark solid parts
    rw [Logical.segments, stripAppRoot_of_not_home astray, cut, behind.pieces_eq]
  obtain ⟨reached, led, rfl⟩ := Option.map_eq_some_iff.mp normal
  rw [homed, follow_stays (.inl rfl)] at led
  have below : follow [] (['~'] :: pieces isSeparator rest) = some (reached ++ [['~']]) := by
    rw [follow_descends (by decide)]
    exact follow_below led [['~']]
  have named := follow_names (by simp) (fun segment member => (mem_pieces member).2) led
  refine ⟨reached.reverse, rfl, fun name member => (named name (List.mem_reverse.mp member)).1, ?_⟩
  rw [normalize, strayed, below, Option.map_some, List.reverse_append, List.reverse_singleton,
    List.singleton_append]

/-- With a canonical spelling, only one of the two begins with the application root if they have
none in common. -/
theorem Respelled.normalize_eq_iff (respelled : Respelled path other) :
    normalize other = normalize path ↔
      beginsWith "~/" other = beginsWith "~/" path ∨
        normalize path = none ∧ normalize other = none := by
  -- A directory that is named `~` is one more than there are without it.
  have apart {path other : Text} (respelled : Respelled path other)
      (home : beginsWith "~/" path = true) (astray : beginsWith "~/" other = false)
      (same : normalize other = normalize path) : normalize path = none := by
    rw [Option.eq_none_iff_forall_ne_some]
    intro canonical normal
    obtain ⟨names, rfl, named, below⟩ := respelled.normalize_astray home astray normal
    rw [same, normal] at below
    have physical : ∀ name ∈ names, Physical.IsName name :=
      fun name member => (named name member).physical
    have equal : names = ['~'] :: names := ofSegments_injective physical
      (List.forall_mem_cons.mpr ⟨by decide, physical⟩) (Option.some.inj below)
    exact List.cons_ne_self _ _ equal.symm
  constructor
  · intro same
    by_cases alike : beginsWith "~/" other = beginsWith "~/" path
    · exact .inl alike
    · right
      have none : normalize path = none := by
        cases home : beginsWith "~/" path with
        | true =>
          rw [home, Bool.not_eq_true] at alike
          exact apart respelled home alike same
        | false =>
          rw [home, Bool.not_eq_false] at alike
          exact same.symm.trans (apart respelled.symm alike home same.symm)
      exact ⟨none, same.trans none⟩
  · rintro (alike | ⟨outside, also⟩)
    · exact respelled.normalize_eq alike
    · rw [outside, also]

/-! ## What is found for a spelling -/

/-- Two spellings for which the same is found: items, tokens, the chain of imports and dependents.
Only the item of a path that leaves the root tells them apart, by the spelling that it carries. -/
structure FoundAlike (path other : Text) : Prop where
  memoryItem (memory : Memory) (inside : (normalize path).isSome) :
    memory.item other = memory.item path
  memoryOutside (memory : Memory) (outside : normalize path = none) :
    memory.item other = { memory.item path with path := other }
  memoryToken (memory : Memory) : memory.token other = memory.token path
  directoryItem (directory : Directory) (inside : (normalize path).isSome) :
    directory.item other = directory.item path
  directoryOutside (directory : Directory) (outside : normalize path = none) :
    directory.item other = { directory.item path with path := other }
  directoryToken (directory : Directory) : directory.issue other = directory.issue path
  candidates (name : Text) : hierarchicalCandidates other name = hierarchicalCandidates path name
  imports {P Token : Type} [Project P Token] [Project.Sighted P] (options : Options)
    (kind : ImportsKind) (project : P) :
    ((TemplateUnit.resolve options kind other).run project).imports =
      ((TemplateUnit.resolve options kind path).run project).imports
  dependents {P Token : Type} (cache : Cache P Token) :
    cache.dependentsOf other = cache.dependentsOf path

/-- Everything is looked up by the canonical spelling. -/
theorem foundAlike_of_normalize (same : normalize other = normalize path) :
    FoundAlike path other := by
  have chain (name : Text) :
      hierarchicalCandidates other name = hierarchicalCandidates path name := by
    rw [hierarchicalCandidates, hierarchicalCandidates, same]
  have settled (path name : Text) : hierarchicalCandidates ((normalize path).getD path) name =
      hierarchicalCandidates path name := by
    cases normal : normalize path with
    | none => rfl
    | some canonical =>
      rw [Option.getD_some, hierarchicalCandidates, hierarchicalCandidates, normal,
        normalize_canonical normal]
  constructor
  · intro memory inside
    obtain ⟨canonical, normal⟩ := Option.isSome_iff_exists.mp inside
    rw [memory.item_some normal, memory.item_some (same.trans normal)]
  · intro memory outside
    rw [memory.item_none outside, memory.item_none (same.trans outside)]
  · intro memory
    simp only [Memory.token, same]
  · intro directory inside
    obtain ⟨canonical, normal⟩ := Option.isSome_iff_exists.mp inside
    simp only [Directory.item, same, normal]
  · intro directory outside
    simp only [Directory.item, same, outside]
  · intro directory
    simp only [Directory.issue, same]
  · exact chain
  · intro P Token _ _ options kind project
    simp only [TemplateUnit.resolve_items, settled, chain]
  · intro P Token cache
    simp only [Cache.dependentsOf, same]

/-- It makes no difference which separator stands where, if both spellings begin with `~/` or
neither does. If only one of them does, its canonical spelling is not that of the other, which is
read from a directory named `~`. -/
theorem normalize_respelled (respelled : Respelled path other) :
    (normalize other = normalize path ↔
        beginsWith "~/" other = beginsWith "~/" path ∨
          normalize path = none ∧ normalize other = none) ∧
      (normalize other = normalize path → FoundAlike path other) ∧
      (beginsWith "~/" path = true → beginsWith "~/" other = false → ∀ canonical,
        normalize path = some canonical →
          ∃ names, canonical = ofSegments names ∧
            normalize other = some (ofSegments (['~'] :: names))) := by
  refine ⟨respelled.normalize_eq_iff, foundAlike_of_normalize, ?_⟩
  intro home astray canonical normal
  obtain ⟨names, shape, -, below⟩ := respelled.normalize_astray home astray normal
  exact ⟨names, shape, below⟩

/-- Separators behind that of the application root are changed both ways. -/
theorem normalize_respelled_inside :
    Respelled "~/Views\\Home//a.cshtml" "~/Views/Home\\/a.cshtml" ∧
      normalize "~/Views/Home\\/a.cshtml" = normalize "~/Views\\Home//a.cshtml" ∧
      FoundAlike "~/Views\\Home//a.cshtml" "~/Views/Home\\/a.cshtml" := by
  have respelled : Respelled "~/Views\\Home//a.cshtml" "~/Views/Home\\/a.cshtml" := by decide
  obtain ⟨alike, found, -⟩ := normalize_respelled respelled
  have same := alike.mpr (.inl (by decide))
  exact ⟨respelled, same, found same⟩

/-- With a backslash, the application root is a directory like others; and the item of a path that
leaves the root tells how it was spelled. -/
theorem normalize_tilde :
    Respelled "~/a" "~\\a" ∧ normalize "~/a" = some "/a" ∧ normalize "~\\a" = some "/~/a" ∧
      Respelled "/../a" "/..\\a" ∧ (∀ memory : Memory,
        (memory.item "/..\\a").path ≠ (memory.item "/../a").path) := by
  refine ⟨by decide, by decide, by decide, by decide, fun memory => ?_⟩
  rw [memory.item_none (by decide), memory.item_none (by decide)]
  decide

end ViewCompiler.Logical

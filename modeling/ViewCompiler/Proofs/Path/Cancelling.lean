import Mathlib.Logic.Relation
import ViewCompiler.Cache
import ViewCompiler.Directory
import ViewCompiler.Memory
import ViewCompiler.Proofs.Path.Canonical

/-!
# Cancelling climbs

A path is canonized by following its segments down from the root and up again. What comes of it
can be told without following: a path leaves the root exactly if somewhere along its segments
more of them have climbed than have gone down, and otherwise its names are the segments that are
left when every climb is cancelled together with the nearest name before it that is not yet
cancelled. In which order the climbs are cancelled makes no difference.

The canonical spelling is therefore free of everything that makes spellings differ, and whatever
looks a path up by its canonical spelling answers alike for all spellings of a path.
-/

namespace ViewCompiler.Logical

open Text

variable {directory rest path left reached : List Text} {segment : Text}

/-- A segment that goes one directory down. -/
def Descends (segment : Text) : Prop := segment ≠ [] ∧ segment ≠ ['.'] ∧ segment ≠ ['.', '.']

instance (segment : Text) : Decidable (Descends segment) :=
  inferInstanceAs (Decidable (segment ≠ [] ∧ segment ≠ ['.'] ∧ segment ≠ ['.', '.']))

/-- A segment that neither stays nor climbs goes down. -/
theorem descends_of_not (goes : ¬ (segment = [] ∨ segment = ['.'])) (plain : segment ≠ ['.', '.']) :
    Descends segment :=
  ⟨fun empty => goes (.inl empty), fun dot => goes (.inr dot), plain⟩

/-- A segment that goes down does not stay. -/
theorem Descends.not_stays (descends : Descends segment) : ¬ (segment = [] ∨ segment = ['.']) :=
  fun stays => stays.elim descends.1 descends.2.1

/-- A name goes down. -/
theorem IsName.descends (name : IsName segment) : Descends segment :=
  ⟨name.1, name.2.1, name.2.2.1⟩

/-- How many segments go down. -/
def descents (path : List Text) : Nat := path.countP (Descends ·)

/-- How many segments climb. -/
def climbs (path : List Text) : Nat := path.count ['.', '.']

/-- Somewhere along the way, started this deep, more segments have climbed than there was depth
for. -/
def Escapes (depth : Nat) (path : List Text) : Prop :=
  ∃ front, front <+: path ∧ depth + descents front < climbs front

/-- Segments that count for nothing are taken out: one that stays where it is, or a climb
together with the name right before it. -/
inductive Cancels : List Text → List Text → Prop
  | idle {segment : Text} (front rest : List Text) (stays : segment = [] ∨ segment = ['.']) :
      Cancels (front ++ segment :: rest) (front ++ rest)
  | climb {name : Text} (front rest : List Text) (descends : Descends name) :
      Cancels (front ++ name :: ['.', '.'] :: rest) (front ++ rest)

/-- What is left when nothing but names is left. -/
def CancelsTo (path left : List Text) : Prop :=
  Relation.ReflTransGen Cancels path left ∧ ∀ segment ∈ left, Descends segment

/-! ## Leaving the root -/

/-- The first segment goes down, or does not count. -/
theorem descents_cons (segment : Text) (rest : List Text) :
    descents (segment :: rest) = descents rest + if Descends segment then 1 else 0 := by
  simp [descents, List.countP_cons]

/-- The first segment climbs, or does not count. -/
theorem climbs_cons (segment : Text) (rest : List Text) :
    climbs (segment :: rest) = climbs rest + if segment = ['.', '.'] then 1 else 0 := by
  simp [climbs, List.count_cons]

/-- The way is left at its first segment or behind it. -/
theorem escapes_cons_iff (depth : Nat) :
    Escapes depth (segment :: rest) ↔
      ∃ front, front <+: rest ∧
        depth + descents (segment :: front) < climbs (segment :: front) := by
  constructor
  · rintro ⟨front, leading, beyond⟩
    rcases List.prefix_cons_iff.mp leading with rfl | ⟨further, rfl, inside⟩
    · exact absurd beyond (Nat.not_lt_zero _)
    · exact ⟨further, inside, beyond⟩
  · rintro ⟨front, leading, beyond⟩
    exact ⟨segment :: front, List.prefix_cons_inj segment |>.mpr leading, beyond⟩

/-- Following leads nowhere exactly if the way escapes from the depth that it starts at. -/
theorem follow_eq_none_iff :
    follow directory path = none ↔ Escapes directory.length path := by
  fun_induction follow directory path with
  | case1 directory =>
    simp [Escapes, climbs]
  | case2 directory segment rest stays inductionHypothesis =>
    have goes : ¬ Descends segment := fun descends => descends.not_stays stays
    have climbs : segment ≠ ['.', '.'] := by
      rintro rfl
      simp at stays
    rw [inductionHypothesis, escapes_cons_iff]
    simp only [descents_cons, climbs_cons, goes, climbs, ↓reduceIte, Nat.add_zero]
    rfl
  | case3 rest =>
    exact iff_of_true rfl ⟨[['.', '.']], by simp, by decide⟩
  | case4 rest name outer _ inductionHypothesis =>
    have goes : ¬ Descends ['.', '.'] := fun descends => descends.2.2 rfl
    rw [inductionHypothesis, escapes_cons_iff]
    simp only [descents_cons, climbs_cons, goes, ↓reduceIte, List.length_cons, Escapes]
    exact exists_congr fun front => and_congr_right fun _ => by omega
  | case5 directory segment rest solid climbs inductionHypothesis =>
    have goes : Descends segment := descends_of_not solid climbs
    rw [inductionHypothesis, escapes_cons_iff]
    simp only [descents_cons, climbs_cons, goes, climbs, ↓reduceIte, List.length_cons, Escapes]
    exact exists_congr fun front => and_congr_right fun _ => by omega

/-! ## Cancelling as following -/

/-- A segment that stays is passed over. -/
theorem follow_stays (stays : segment = [] ∨ segment = ['.']) :
    follow directory (segment :: rest) = follow directory rest := by
  cases directory <;> simp only [follow, if_pos stays]

/-- A segment that goes down is entered. -/
theorem follow_descends (descends : Descends segment) :
    follow directory (segment :: rest) = follow (segment :: directory) rest := by
  cases directory <;> simp only [follow, if_neg descends.not_stays, if_neg descends.2.2]

/-- A path is followed part by part, and leads nowhere once it has left the root. -/
theorem follow_append (directory front rest : List Text) :
    follow directory (front ++ rest) = (follow directory front).bind (follow · rest) := by
  fun_induction follow directory front with
  | case1 => rfl
  | case2 directory segment front stays inductionHypothesis =>
    rw [List.cons_append, follow_stays stays, inductionHypothesis]
  | case3 => rfl
  | case4 front name outer _ inductionHypothesis => exact inductionHypothesis
  | case5 directory segment front solid climbs inductionHypothesis =>
    have descends := descends_of_not solid climbs
    rw [List.cons_append, follow_descends descends, inductionHypothesis]

/-- Cancelling does not change where segments lead to. -/
theorem Cancels.follow_eq (cancels : Cancels path left) :
    follow directory left = follow directory path := by
  cases cancels with
  | idle front rest stays =>
    simp only [follow_append, follow_stays stays]
  | climb front rest descends =>
    simp only [follow_append, follow_descends descends]
    rfl

/-- What counts for nothing makes no difference to where a path leads. -/
theorem follow_of_cancels (cancels : Relation.ReflTransGen Cancels path left) :
    follow directory left = follow directory path := by
  induction cancels with
  | refl => rfl
  | tail _ last inductionHypothesis => exact last.follow_eq.trans inductionHypothesis

/-- Names alone lead down from where one is. -/
theorem follow_of_descends (descend : ∀ segment ∈ left, Descends segment) :
    follow directory left = some (left.reverse ++ directory) := by
  induction left generalizing directory with
  | nil => rfl
  | cons segment left inductionHypothesis =>
    obtain ⟨descends, further⟩ := List.forall_mem_cons.mp descend
    rw [follow_descends descends, inductionHypothesis further, List.reverse_cons, List.append_assoc]
    rfl

/-- What segments cancel to is where they lead. -/
theorem CancelsTo.follow_eq (cancelled : CancelsTo path left) :
    follow [] path = some left.reverse := by
  rw [← follow_of_cancels cancelled.1, follow_of_descends cancelled.2, List.append_nil]

/-- It makes no difference in which order climbs are cancelled. -/
theorem CancelsTo.unique {also : List Text} (one : CancelsTo path left)
    (other : CancelsTo path also) : left = also :=
  List.reverse_inj.mp (Option.some.inj (one.follow_eq.symm.trans other.follow_eq))

/-- Following cancels one segment after the other. The names of the directory that was reached so
far stand before what is still to follow, so the last of them is the nearest one to a climb. -/
theorem cancels_of_follow (named : ∀ segment ∈ directory, Descends segment)
    (led : follow directory path = some reached) :
    Relation.ReflTransGen Cancels (directory.reverse ++ path) reached.reverse := by
  fun_induction follow directory path with
  | case1 directory =>
    obtain rfl := Option.some.inj led
    rw [List.append_nil]
  | case2 directory segment rest stays inductionHypothesis =>
    exact (inductionHypothesis named led).head (.idle directory.reverse rest stays)
  | case3 => cases led
  | case4 rest name outer _ inductionHypothesis =>
    obtain ⟨descends, further⟩ := List.forall_mem_cons.mp named
    rw [List.reverse_cons, List.append_assoc]
    exact (inductionHypothesis further led).head (.climb outer.reverse rest descends)
  | case5 directory segment rest solid climbs inductionHypothesis =>
    have descends := descends_of_not solid climbs
    have onward := inductionHypothesis (List.forall_mem_cons.mpr ⟨descends, named⟩) led
    rwa [List.reverse_cons, List.append_assoc] at onward

/-- A path is spelled canonically by the segments that are left of it when its climbs are
cancelled. -/
theorem normalize_eq_some_iff {path canonical : Text} :
    normalize path = some canonical ↔
      ∃ left, CancelsTo (segments path) left ∧ canonical = ofSegments left := by
  constructor
  · intro normal
    have whole : ∀ segment ∈ segments path, ∀ char ∈ segment, isSeparator char = false :=
      fun segment member => (mem_pieces member).2
    obtain ⟨reached, led, rfl⟩ := Option.map_eq_some_iff.mp normal
    refine ⟨reached.reverse, ⟨cancels_of_follow (by simp) led, ?_⟩, rfl⟩
    intro segment member
    exact (follow_names (by simp) whole led segment (List.mem_reverse.mp member)).1.descends
  · rintro ⟨left, cancelled, rfl⟩
    rw [normalize, cancelled.follow_eq, Option.map_some, List.reverse_reverse]

/-! ## What a canonical spelling looks like -/

/-- A spelling without a backslash, of names with one slash before each, or of the root. -/
structure IsCanonical (text : Text) : Prop where
  rooted : beginsWith ['/'] text
  forward : '\\' ∉ text
  solid : text = ['/'] ∨ ∀ segment ∈ (pieces (· == '/') text).tail, Descends segment
  ended : text ≠ ['/'] → endsWith ['/'] text = false

/-- Names with a slash before each are a canonical spelling. -/
theorem isCanonical_ofSegments {names : List Text} (named : ∀ name ∈ names, IsName name) :
    IsCanonical (ofSegments names) := by
  have whole : ∀ name ∈ names, ∀ char ∈ name, (char == '/') = false := by
    intro name member char inside
    have plain := (named name member).2.2.2 char inside
    simp only [isSeparator, Bool.or_eq_false_iff] at plain
    exact plain.1
  have solid : ofSegments names = ['/'] ∨
      ∀ segment ∈ (pieces (· == '/') (ofSegments names)).tail, Descends segment := by
    by_cases empty : names = []
    · exact .inl (by rw [empty]; rfl)
    · have cut : pieces (· == '/') (ofSegments names) = [] :: names := by
        rw [ofSegments, pieces, if_pos (beq_self_eq_true '/'), pieces_joined rfl empty whole]
      right
      intro segment member
      rw [cut, List.tail_cons] at member
      exact (named segment member).descends
  refine ⟨rfl, ?_, solid, ?_⟩
  · intro member
    rcases List.mem_cons.mp member with slash | inside
    · exact absurd slash (by decide)
    · rcases mem_joined inside with slash | ⟨name, among, within⟩
      · exact absurd slash (by decide)
      · exact absurd ((named name among).2.2.2 _ within) (by decide)
  · intro below
    cases ended : endsWith ['/'] (ofSegments names) with
    | false => rfl
    | true =>
      -- A slash at the end has an empty piece behind it, which is not the first one.
      obtain ⟨front, found⟩ := Option.isSome_iff_exists.mp ended
      have shape := beforeTail?_eq_some_iff.mp found
      have last : [] ∈ (pieces (· == '/') (ofSegments names)).tail := by
        rw [shape, pieces_mark front [] rfl,
          List.tail_append_of_ne_nil (pieces_ne_nil _ front)]
        exact List.mem_append_right _ List.mem_cons_self
      exact absurd rfl (solid.resolve_left below [] last).1

/-! ## One name for all spellings -/

/-- A spelling that stands for its canonical one: what looks it up carries the canonical spelling
and answers as it answers for that. -/
structure KnownAs (path canonical : Text) : Prop where
  memoryItem (memory : Memory) :
    (memory.item path).path = canonical ∧ memory.item path = memory.item canonical
  memoryToken (memory : Memory) :
    memory.token path = .generation canonical (memory.generation canonical) ∧
      memory.token path = memory.token canonical
  directoryItem (directory : Directory) :
    (directory.item path).path = canonical ∧ directory.item path = directory.item canonical
  directoryToken (directory : Directory) : directory.issue path = directory.issue canonical
  dependents {P Token : Type} (cache : Cache P Token) :
    cache.dependentsOf path = cache.dependentsOf canonical

/-- Whatever can be normalized is known by its canonical spelling. -/
theorem knownAs_of_normalize {path canonical : Text} (normal : normalize path = some canonical) :
    KnownAs path canonical := by
  have again := normalize_canonical normal
  constructor
  · intro memory
    simp only [Memory.item, normal, again, and_self]
  · intro memory
    simp only [Memory.token, normal, again, and_self]
  · intro directory
    simp only [Directory.item, normal, again, and_self]
  · intro directory
    simp only [Directory.issue, normal, again]
  · intro P Token cache
    simp only [Cache.dependentsOf, normal, again]

/-- A path has no canonical spelling exactly if some of its first segments climb more often than
they go down. Otherwise it is spelled by the segments that are left when each climb is cancelled
with the nearest name before it; this spelling looks as it should, is its own canonical spelling,
and is the one name that every spelling of the path is known by. -/
theorem normalize_cancelled (path : Text) :
    (normalize path = none ↔
        ∃ front, front <+: segments path ∧ descents front < climbs front) ∧
      (∀ canonical, normalize path = some canonical ↔
        ∃ left, CancelsTo (segments path) left ∧ canonical = ofSegments left) ∧
      ∀ canonical, normalize path = some canonical →
        IsCanonical canonical ∧ normalize canonical = some canonical ∧ KnownAs path canonical := by
  refine ⟨?_, fun canonical => normalize_eq_some_iff, ?_⟩
  · rw [normalize, Option.map_eq_none_iff, follow_eq_none_iff]
    simp only [Escapes, List.length_nil, Nat.zero_add]
  · intro canonical normal
    obtain ⟨names, rfl, named⟩ := normalize_names normal
    exact ⟨isCanonical_ofSegments fun segment member => (named segment member).1,
      normalize_canonical normal, knownAs_of_normalize normal⟩

/-- Climbs are cancelled from the application root on, past backslashes and dots. -/
theorem normalize_cancelled_climbing :
    normalize "~/Views\\./Home//../../a/" = some "/a" ∧ IsCanonical "/a" ∧
      KnownAs "~/Views\\./Home//../../a/" "/a" := by
  have normal : normalize "~/Views\\./Home//../../a/" = some "/a" := by decide
  obtain ⟨-, -, known⟩ := normalize_cancelled "~/Views\\./Home//../../a/"
  obtain ⟨shape, -, alike⟩ := known "/a" normal
  exact ⟨normal, shape, alike⟩

end ViewCompiler.Logical
